import BestKernel.Filesystem.References
import BestKernel.Processes.Exec
import Mathlib.Algebra.Order.BigOperators.Group.Finset

/-!
# Open counters and open descriptors

The counter of a file should be the number of live descriptors, of all processes,
that refer to it (`CountsMatch`), and closing or killing should leave the counters of
other files alone (`OthersKept`).

`SYSOPEN` and `exec` raise no counter, but they mark no descriptor either, so nothing
that they hand out is ever live.  `PKILL` counts down once for each live descriptor of
its process and takes the table away.  `SYSCLOSE` clears the descriptor first and then
counts down the file that the word at address 0 names, while `Hash::free` unmarks
descriptor 0 only.  So the counters are right as long as every `SYSCLOSE` is refused,
or closes descriptor 0 of the very file that address 0 names, and no descriptor that
is live is read through a null pointer or overwritten (`open_counts_of_stepsMeet`).

Readings of the source.  `openers` and `listeners` of a file are one counter.  `PKILL`
also goes through page listeners, page trees and segments, which is left out here.
`exec` is cut down to the process and its descriptors; whether it refuses the file,
what the slot of the pool of descriptors held and where the pool of pointers put the
list are parameters.
-/

namespace BestKernel
namespace Filesystem

open Machine
open Kontrol
open Runs
open Syscalls (DescriptorTable)
open Processes (slotIn nullSlot)
open scoped BigOperators

/-- The kernel, with the tables of the processes and of the descriptors. -/
structure OpenTables where
  kernel : Kernel
  kprc : Hash
  kdescs : Hash

namespace Kernel

/-- `process->descs->pool[i]->findex`. -/
def findexAt (s : Kernel) (pid i : Nat) : Nat :=
  (((s.processes pid).entries i).getD s.null).findex.toNat

/-- `--vfs->descriptions[f]->openers`. -/
def dropOpener (s : Kernel) (f : Nat) : Kernel :=
  let file := s.vfs.descriptions f
  let descriptions :=
    Function.update s.vfs.descriptions f { file with listeners := file.listeners - 1 }
  { s with vfs := { s.vfs with descriptions := descriptions } }

/-- What `PKILL` does for descriptor `i`. -/
def closeDescriptor (pid : Nat) (s : Kernel) (i : Nat) : Kernel :=
  if (s.processes pid).table.descs.ckarray i = 0 then s
  else s.dropOpener (s.findexAt pid i)

end Kernel

/-- What `exec` finds: the bytes from address 0 on, which a zeroed table has for its
marks, what the slot of the descriptor held, and where the list is put. -/
structure ExecFound where
  bytes : Nat → Byte
  held : Descriptor
  pool : Word

namespace OpenTables

/-- `exec` by `caller`, as far as descriptors go. -/
def exec (DEVDESC : Word) (s : OpenTables) (caller : Nat) (found : ExecFound) : OpenTables :=
  let (process, kprc) := s.kprc.alloc 1 0
  let (zeroth, kdescs) := s.kdescs.alloc 1 0
  let first := slotIn s.kdescs zeroth
  let (next, kdescs') := kdescs.alloc 1 0
  let second := slotIn kdescs next
  let root := (s.kernel.descriptorOf caller 0).findex
  let held (d : Nat) := if d = nullSlot then s.kernel.null else found.held
  let held := Function.update held first { held first with findex := root }
  let held := Function.update held second { held second with findex := DEVDESC }
  let entry (d : Nat) := if d = nullSlot then none else some (held d)
  let made : Process :=
    { owner_id := (s.kernel.processes caller).owner_id
      table := ⟨⟨.POINTER, 0, 0, found.bytes, found.pool, 8⟩, found.bytes⟩
      entries := fun i => if i = 0 then entry first else if i = 1 then entry second else none }
  { kernel :=
      { s.kernel.setProcess (slotIn s.kprc process) made with null := held nullSlot }
    kprc := kprc
    kdescs := kdescs' }

/-- `PKILL`, as far as descriptors go. -/
def pkill (s : OpenTables) (pid : Nat) (bytes : Nat → Byte) : OpenTables :=
  let descs := (s.kernel.processes pid).table.descs
  let kernel := (List.range descs.length.toNat).foldl (Kernel.closeDescriptor pid) s.kernel
  { kernel := kernel.pkill pid bytes
    kprc := released s.kprc (s.kprc.pool + s.kprc.stride * BitVec.ofNat 64 pid) 1
    kdescs := released s.kdescs descs.pool descs.length }

end OpenTables

/-- The calls, with the process that makes them or is killed. -/
inductive OpenCountOp where
  | sysopen (pid : Nat) (call : OpenCall)
  | sysclose (pid : Nat) (desc : Half)
  | exec (pid : Nat) (refused : Bool) (found : ExecFound)
  | pkill (pid : Nat) (bytes : Nat → Byte)

def OpenCountOp.pid : OpenCountOp → Nat
  | .sysopen pid _ => pid
  | .sysclose pid _ => pid
  | .exec pid _ _ => pid
  | .pkill pid _ => pid

/-- A call by a process of the table. -/
def OpenCountStep (k : Constants) (DEVDESC : Word) (s : OpenTables) (op : OpenCountOp)
    (s' : OpenTables) : Prop :=
  op.pid < s.kprc.length.toNat ∧
    match op with
    | .sysopen pid call =>
        ∃ fuel r, s.kernel.sysopen k pid call fuel = some r ∧
          s' = { s with kernel := r.kernel }
    | .sysclose pid desc => s' = { s with kernel := (s.kernel.sysclose pid desc).2 }
    | .exec pid refused found => s' = if refused then s else s.exec DEVDESC pid found
    | .pkill pid bytes => s' = s.pkill pid bytes

/-- The files that the live descriptors of a process refer to, once for each. -/
def Kernel.openFindexes (s : Kernel) (pid : Nat) : List Nat :=
  ((List.range (s.processes pid).table.descs.length.toNat).filter fun i =>
    (s.processes pid).table.descs.ckarray i ≠ 0).map (s.findexAt pid)

/-- The live descriptors of all processes that refer to `f`. -/
def OpenTables.openCount (s : OpenTables) (f : Nat) : Nat :=
  ∑ pid ∈ Finset.range s.kprc.length.toNat, (s.kernel.openFindexes pid).count f

/-- **The counter of a file is the number of its live descriptors.** -/
def CountsMatch (s : OpenTables) : Prop :=
  ∀ f, (s.kernel.vfs.descriptions f).listeners.toNat = s.openCount f

/-- Closing or killing leaves the counters of the files that the process has not open. -/
def OthersKept (s : OpenTables) (op : OpenCountOp) (s' : OpenTables) : Prop :=
  match op with
  | .sysopen _ _ => True
  | .exec _ _ _ => True
  | .sysclose pid _ => ∀ f, f ∉ s.kernel.openFindexes pid →
      (s'.kernel.vfs.descriptions f).listeners = (s.kernel.vfs.descriptions f).listeners
  | .pkill pid _ => ∀ f, f ∉ s.kernel.openFindexes pid →
      (s'.kernel.vfs.descriptions f).listeners = (s.kernel.vfs.descriptions f).listeners

/-- No live descriptor is a null pointer. -/
def Kernel.NoNull (s : Kernel) : Prop :=
  ∀ pid i, i < (s.processes pid).table.descs.length.toNat →
    (s.processes pid).table.descs.ckarray i ≠ 0 → (s.processes pid).entries i ≠ none

/-- Some slot of the pool is free. -/
def HasFree (h : Hash) : Prop := ∃ i, i < h.length.toNat ∧ h.ckarray i = 0

/-- The condition on a step, in the state before it. -/
def OpenSafe (s : OpenTables) : OpenCountOp → Prop
  | .sysopen pid call =>
      (s.kernel.processes pid).table.refuses call.dir_descriptor .SYSOPEN = true ∨
        HasFree (s.kernel.processes pid).table.descs ∨ s.kernel.NoNull
  | .sysclose pid desc =>
      (s.kernel.processes pid).table.refuses desc .SYSCLOSE = true ∨
        (desc = 0 ∧ (s.kernel.processes pid).table.Live 0 ∧
          s.kernel.findexAt pid 0 = s.kernel.null.findex.toNat)
  | .exec _ refused _ =>
      refused = true ∨
        (s.kernel.openFindexes (slotIn s.kprc (s.kprc.alloc 1 0).1) = [] ∧
          (slotIn s.kdescs (s.kdescs.alloc 1 0).1 ≠ nullSlot ∨ s.kernel.NoNull))
  | .pkill _ _ => True

section Counting

variable {s s' : OpenTables} {t t' : Kernel} {pid q : Nat}

/-- What the live descriptors of a process refer to is a matter of the marks and of
where the marked slots lead. -/
theorem openFindexes_congr
    (hlength : (t'.processes q).table.descs.length = (t.processes q).table.descs.length)
    (hmarks : (t'.processes q).table.descs.ckarray = (t.processes q).table.descs.ckarray)
    (hfindex : ∀ i, i < (t.processes q).table.descs.length.toNat →
      (t.processes q).table.descs.ckarray i ≠ 0 → t'.findexAt q i = t.findexAt q i) :
    t'.openFindexes q = t.openFindexes q := by
  unfold Kernel.openFindexes
  rw [hlength, hmarks]
  refine List.map_congr_left fun i hi => ?_
  obtain ⟨hrange, hmark⟩ := List.mem_filter.mp hi
  exact hfindex i (List.mem_range.mp hrange) (of_decide_eq_true hmark)

/-- A descriptor leads where it did, unless it is a null pointer. -/
theorem findexAt_congr
    {i : Nat}
    (hentry : (t'.processes q).entries i = (t.processes q).entries i)
    (hnull : t'.null.findex = t.null.findex ∨ (t.processes q).entries i ≠ none) :
    t'.findexAt q i = t.findexAt q i := by
  unfold Kernel.findexAt
  rw [hentry]
  cases hfound : (t.processes q).entries i with
  | some d => rfl
  | none => exact congrArg BitVec.toNat (hnull.resolve_right fun h => h hfound)

/-- Nothing about live descriptors has changed. -/
theorem countsMatch_congr
    (hmatch : CountsMatch s)
    (hlength : s'.kprc.length = s.kprc.length)
    (hopen : ∀ q, s'.kernel.openFindexes q = s.kernel.openFindexes q)
    (hlisteners : ∀ f, (s'.kernel.vfs.descriptions f).listeners =
      (s.kernel.vfs.descriptions f).listeners) :
    CountsMatch s' := by
  intro f
  rw [hlisteners, hmatch f, OpenTables.openCount, OpenTables.openCount, hlength]
  exact Finset.sum_congr rfl fun q _ => by rw [hopen q]

/-- Descriptors of one process have been closed, and the counters have fallen. -/
theorem countsMatch_exchange
    (hmatch : CountsMatch s)
    (hpid : pid < s.kprc.length.toNat)
    (hlength : s'.kprc.length = s.kprc.length)
    (hothers : ∀ q, q ≠ pid → s'.kernel.openFindexes q = s.kernel.openFindexes q)
    (hlisteners : ∀ f, (s'.kernel.vfs.descriptions f).listeners.toNat +
        (s.kernel.openFindexes pid).count f =
      (s.kernel.vfs.descriptions f).listeners.toNat +
        (s'.kernel.openFindexes pid).count f) :
    CountsMatch s' := by
  intro f
  have hmem : pid ∈ Finset.range s.kprc.length.toNat := Finset.mem_range.mpr hpid
  have hbefore := hmatch f
  have hchange := hlisteners f
  rw [OpenTables.openCount, ← Finset.add_sum_erase _ _ hmem] at hbefore
  rw [OpenTables.openCount, hlength, ← Finset.add_sum_erase _ _ hmem]
  have hrest : ∑ q ∈ (Finset.range s.kprc.length.toNat).erase pid,
        (s'.kernel.openFindexes q).count f =
      ∑ q ∈ (Finset.range s.kprc.length.toNat).erase pid,
        (s.kernel.openFindexes q).count f :=
    Finset.sum_congr rfl fun q hq => by rw [hothers q (Finset.ne_of_mem_erase hq)]
  omega

/-- A process has at most as many live descriptors for a file as there are. -/
theorem count_le_openCount
    (hpid : pid < s.kprc.length.toNat)
    (f : Nat) :
    (s.kernel.openFindexes pid).count f ≤ s.openCount f :=
  Finset.single_le_sum (f := fun q => (s.kernel.openFindexes q).count f)
    (fun _ _ => Nat.zero_le _) (Finset.mem_range.mpr hpid)

theorem toNat_sub_ofNat
    {x : Half} {n : Nat}
    (hn : n ≤ x.toNat) :
    (x - BitVec.ofNat 32 n).toNat = x.toNat - n := by
  have hlt := x.isLt
  rw [BitVec.toNat_sub, BitVec.toNat_ofNat]
  omega

end Counting

section Opening

variable {k : Constants} {s : Kernel} {pid q : Nat} {call : OpenCall} {fuel : Nat}
  {r : OpenResult}

/-- Taking a descriptor leaves the length and the marks of every table. -/
theorem takeDescriptor_marks
    (hregular : Regular s)
    (tryn : Word) :
    ((s.takeDescriptor pid tryn).2.processes q).table.descs.length =
        (s.processes q).table.descs.length ∧
      ((s.takeDescriptor pid tryn).2.processes q).table.descs.ckarray =
        (s.processes q).table.descs.ckarray := by
  by_cases hq : q = pid
  · subst hq
    have hself : ((s.takeDescriptor q tryn).2.processes q).table.descs =
        ((s.processes q).table.descs.alloc 1 tryn).2 := by
      rw [Kernel.takeDescriptor]
      dsimp only
      rw [setProcess_self]
    rw [hself]
    rcases alloc_one_cases (hregular.type q) (hregular.stride q) tryn with
      ⟨i, -, -, -, halloc⟩ | ⟨-, -, halloc⟩
    · rw [halloc]
      exact ⟨rfl, rfl⟩
    · rw [halloc]
      exact ⟨rfl, rfl⟩
  · have hother : (s.takeDescriptor pid tryn).2.processes q = s.processes q :=
      setProcess_of_ne _ hq
    rw [hother]
    exact ⟨rfl, rfl⟩

/-- A list that is not full has a descriptor to take. -/
theorem takeDescriptor_of_free
    (hfree : HasFree (s.processes pid).table.descs)
    (tryn : Word) :
    ∃ slot, (s.takeDescriptor pid tryn).1 = some slot := by
  obtain ⟨i, hi, hmark⟩ := hfree
  cases hfound : Hash.allocLoop (s.processes pid).table.descs.ckarray 1
      (s.processes pid).table.descs.length.toNat 0 0 with
  | none => exact absurd hmark (allocLoop_one_none hfound (Nat.zero_le i) (by omega))
  | some found =>
      refine ⟨(s.processes pid).table.descs.slotOf
        ((s.processes pid).table.descs.pool + 8#64 * BitVec.ofNat 64 found), ?_⟩
      rw [Kernel.takeDescriptor, Hash.alloc, hfound]
      rfl

/-- `SYSOPEN` leaves the length and the marks of every table, and it writes through a
null pointer only when the list is full. -/
theorem sysopen_tables
    (hregular : Regular s)
    (h : s.sysopen k pid call fuel = some r) :
    (∀ q, (r.kernel.processes q).table.descs.length = (s.processes q).table.descs.length ∧
        (r.kernel.processes q).table.descs.ckarray = (s.processes q).table.descs.ckarray) ∧
      ((s.processes pid).table.refuses call.dir_descriptor .SYSOPEN = true ∨
          HasFree (s.processes pid).table.descs → r.kernel.null = s.null) := by
  cases hguard : (s.processes pid).table.refuses call.dir_descriptor .SYSOPEN with
  | true =>
      rw [sysopen_refused hguard] at h
      cases h
      exact ⟨fun q => ⟨rfl, rfl⟩, fun _ => rfl⟩
  | false =>
      obtain ⟨address, rfl⟩ := sysopen_passes hregular.aligned hguard h
      refine ⟨fun q => ?_, fun hsafe => ?_⟩
      · dsimp only
        rw [writeDescriptor_table, writeDescriptor_table]
        exact takeDescriptor_marks hregular call.tryn
      · have hfree := hsafe.resolve_left Bool.false_ne_true
        obtain ⟨slot, hslot⟩ := takeDescriptor_of_free hfree call.tryn
        dsimp only
        rw [hslot]
        rfl

/-- **`SYSOPEN` changes nothing about live descriptors.** -/
theorem sysopen_counts
    {s s' : OpenTables}
    (hregular : Regular s.kernel)
    (hmatch : CountsMatch s)
    (hsafe : OpenSafe s (.sysopen pid call))
    (h : s.kernel.sysopen k pid call fuel = some r)
    (hs' : s' = { s with kernel := r.kernel }) :
    CountsMatch s' := by
  obtain ⟨-, hvfs, hkeeps⟩ := sysopen_frame hregular h
  obtain ⟨htables, hnull⟩ := sysopen_tables hregular h
  subst hs'
  refine countsMatch_congr hmatch rfl (fun q => ?_) fun f => by rw [hvfs]
  refine openFindexes_congr (htables q).1 (htables q).2 fun i hi hmark => ?_
  have hlt := (s.kernel.processes q).table.descs.length.isLt
  have hi32 : (BitVec.ofNat 32 i).toNat = i := by
    rw [BitVec.toNat_ofNat, Nat.mod_eq_of_lt (by omega)]
  have hlive : (s.kernel.processes q).table.Live (BitVec.ofNat 32 i) :=
    ⟨by rw [BitVec.lt_def, hi32]; exact hi, by rw [hi32]; exact hmark⟩
  refine findexAt_congr ?_ ?_
  · have hentry := (hkeeps q).entries _ hlive
    rw [hi32] at hentry
    exact hentry
  · rcases hsafe with hrefused | hfree | hnone
    · exact .inl (congrArg Descriptor.findex (hnull (.inl hrefused)))
    · exact .inl (congrArg Descriptor.findex (hnull (.inr hfree)))
    · exact .inr (hnone q i hi hmark)

end Opening

section Closing

variable {s s' : OpenTables} {pid q : Nat} {desc : Half}

/-- The counter that `SYSCLOSE` lowers is that of the file which the word at address 0
names. -/
theorem sysclose_listeners
    (hpasses : (s.kernel.processes pid).table.refuses desc .SYSCLOSE = false)
    (f : Nat) :
    ((s.kernel.sysclose pid desc).2.vfs.descriptions f).listeners =
      (s.kernel.vfs.descriptions f).listeners -
        if f = s.kernel.null.findex.toNat then 1 else 0 := by
  have hnull : (s.kernel.setProcess pid
      { s.kernel.processes pid with
        table := ((s.kernel.processes pid).table.sysclose (fun _ => 0) desc).1
        entries := Function.update (s.kernel.processes pid).entries desc.toNat none }).fileOf
      pid desc = s.kernel.null.findex.toNat := by
    simp [Kernel.fileOf, Kernel.descriptorOf, Kernel.setProcess]
  rw [Kernel.sysclose, hpasses, if_neg Bool.false_ne_true]
  dsimp only
  rw [hnull]
  by_cases hf : f = s.kernel.null.findex.toNat
  · subst hf
    simp [Kernel.setProcess]
  · simp [Kernel.setProcess, hf]

/-- Closing descriptor 0 takes it out of the table. -/
theorem sysclose_openFindexes
    (hstride : (s.kernel.processes pid).table.descs.stride = 8)
    (hpasses : (s.kernel.processes pid).table.refuses 0 .SYSCLOSE = false)
    (hlive : (s.kernel.processes pid).table.Live 0) :
    s.kernel.openFindexes pid =
      s.kernel.findexAt pid 0 :: (s.kernel.sysclose pid 0).2.openFindexes pid := by
  have hself := sysclose_self hpasses
  have hnull : (s.kernel.sysclose pid 0).2.null = s.kernel.null := sysclose_null
  have hlength : ((s.kernel.sysclose pid 0).2.processes pid).table.descs.length =
      (s.kernel.processes pid).table.descs.length := by
    rw [hself, DescriptorTable.sysclose, hpasses, if_neg Bool.false_ne_true]
    rfl
  have hmarks : ∀ i, ((s.kernel.sysclose pid 0).2.processes pid).table.descs.ckarray i =
      if i = 0 then 0 else (s.kernel.processes pid).table.descs.ckarray i := by
    intro i
    have hone : (1 : Half).toNat = 1 := rfl
    rw [hself, DescriptorTable.sysclose, hpasses, if_neg Bool.false_ne_true]
    dsimp only
    rw [Hash.free_ckarray, slotOf_slotAddress hstride, hone]
    simp
  have hfindex : ∀ i, i ≠ 0 → (s.kernel.sysclose pid 0).2.findexAt pid i =
      s.kernel.findexAt pid i := by
    intro i hi
    refine findexAt_congr ?_ (.inl (congrArg Descriptor.findex hnull))
    rw [hself]
    exact Function.update_of_ne hi _ _
  obtain ⟨n, hn⟩ : ∃ n, (s.kernel.processes pid).table.descs.length.toNat = n + 1 :=
    Nat.exists_eq_succ_of_ne_zero (Nat.ne_of_gt (BitVec.lt_def.mp hlive.1))
  have hmarked : decide ((s.kernel.processes pid).table.descs.ckarray 0 ≠ 0) = true :=
    decide_eq_true hlive.2
  have hfreed : ¬ decide
      (((s.kernel.sysclose pid 0).2.processes pid).table.descs.ckarray 0 ≠ 0) = true :=
    fun h => of_decide_eq_true h ((hmarks 0).trans (if_pos rfl))
  unfold Kernel.openFindexes
  rw [hlength, hn, List.range_succ_eq_map, List.filter_cons_of_pos (by exact hmarked),
    List.filter_cons_of_neg (by exact hfreed), List.map_cons]
  congr 1
  -- behind slot 0 nothing has changed
  rw [List.filter_map, List.filter_map, List.map_map, List.map_map]
  refine (List.map_congr_left fun i hi => ?_).trans (congrArg _ ?_)
  · exact (hfindex (i + 1) (Nat.succ_ne_zero i)).symm
  · refine List.filter_congr fun i _ => ?_
    have hmark := (hmarks (i + 1)).trans (if_neg (Nat.succ_ne_zero i))
    simp only [Function.comp_apply, Nat.succ_eq_add_one, hmark]

/-- **`SYSCLOSE` closes descriptor 0 of the file that address 0 names, and no other.** -/
theorem sysclose_counts
    (hregular : Regular s.kernel)
    (hpid : pid < s.kprc.length.toNat)
    (hmatch : CountsMatch s)
    (hsafe : OpenSafe s (.sysclose pid desc))
    (hs' : s' = { s with kernel := (s.kernel.sysclose pid desc).2 }) :
    CountsMatch s' ∧ OthersKept s (.sysclose pid desc) s' := by
  subst hs'
  cases hguard : (s.kernel.processes pid).table.refuses desc .SYSCLOSE with
  | true =>
      rw [sysclose_refused hguard]
      exact ⟨hmatch, fun _ _ => rfl⟩
  | false =>
      obtain ⟨rfl, hlive, hnull⟩ := hsafe.resolve_left (by simp [hguard])
      have hopen := sysclose_openFindexes (hregular.stride pid) hguard hlive
      have hlisteners := sysclose_listeners hguard
      refine ⟨countsMatch_exchange hmatch hpid rfl ?_ ?_, ?_⟩
      · intro q hq
        have hother : (s.kernel.sysclose pid 0).2.processes q = s.kernel.processes q :=
          sysclose_of_ne hq
        refine openFindexes_congr (by rw [hother]) (by rw [hother]) fun i _ _ => ?_
        exact findexAt_congr (by rw [hother]) (.inl (congrArg Descriptor.findex sysclose_null))
      · intro f
        dsimp only
        have hle := count_le_openCount hpid f
        rw [← hmatch f, hopen] at hle
        rw [hlisteners, hopen, hnull]
        rw [hnull] at hle
        rcases eq_or_ne f s.kernel.null.findex.toNat with rfl | hf
        · rw [List.count_cons_self] at hle ⊢
          have hone := toNat_sub_ofNat (n := 1) (Nat.le_trans (Nat.le_add_left 1 _) hle)
          rw [if_pos rfl]
          exact (congrArg (· + _) hone).trans (by omega)
        · rw [List.count_cons_of_ne hf.symm, if_neg hf]
          exact congrArg (fun x : Half => x.toNat + _) (BitVec.sub_zero _)
      · intro f hf
        have hne : f ≠ s.kernel.null.findex.toNat := by
          rintro rfl
          exact hf (by rw [hopen, hnull]; exact List.mem_cons_self)
        exact (hlisteners f).trans (by rw [if_neg hne]; exact BitVec.sub_zero _)

end Closing

section Launching

variable {s : OpenTables} {DEVDESC : Word} {caller : Nat} {found : ExecFound}

/-- A pool that may not grow keeps its length. -/
theorem alloc_length (h : Hash) (reqlen : Half) :
    (h.alloc reqlen 0).2.length = h.length := by
  unfold Hash.alloc
  cases Hash.allocLoop h.ckarray reqlen h.length.toNat 0 0 with
  | some i => rfl
  | none => simp

theorem exec_processes (q : Nat) (hq : q ≠ slotIn s.kprc (s.kprc.alloc 1 0).1) :
    (s.exec DEVDESC caller found).kernel.processes q = s.kernel.processes q :=
  setProcess_of_ne _ hq

/-- The list of the process that `exec` makes has length 0. -/
theorem exec_openFindexes :
    (s.exec DEVDESC caller found).kernel.openFindexes (slotIn s.kprc (s.kprc.alloc 1 0).1) =
      [] := by
  have hlength : ((s.exec DEVDESC caller found).kernel.processes
      (slotIn s.kprc (s.kprc.alloc 1 0).1)).table.descs.length = 0 := by
    simp [OpenTables.exec, Kernel.setProcess]
  rw [Kernel.openFindexes, hlength]
  rfl

/-- With a free slot in the pool of descriptors, nothing is written at address 0. -/
theorem exec_null
    (hfree : slotIn s.kdescs (s.kdescs.alloc 1 0).1 ≠ nullSlot) :
    (s.exec DEVDESC caller found).kernel.null = s.kernel.null := by
  have hmarks : ∀ h : Hash, ((h.alloc 1 0).2.alloc 1 0).1 = (h.alloc 1 0).1 ∧
      ∀ a, slotIn (h.alloc 1 0).2 a = slotIn h a := by
    intro h
    unfold Hash.alloc
    cases hfound : Hash.allocLoop h.ckarray 1 h.length.toNat 0 0 with
    | some i =>
        dsimp only
        rw [hfound]
        exact ⟨rfl, fun _ => rfl⟩
    | none =>
        dsimp only
        rw [if_neg (fun hgrow => hgrow.2 rfl)]
        dsimp only
        rw [hfound]
        dsimp only
        rw [if_neg (fun hgrow => hgrow.2 rfl)]
        exact ⟨rfl, fun _ => rfl⟩
  obtain ⟨hsame, hslot⟩ := hmarks s.kdescs
  simp only [OpenTables.exec, hsame, hslot]
  rw [Function.update_of_ne hfree.symm, Function.update_of_ne hfree.symm, if_pos rfl]

/-- **`exec` makes no descriptor live and counts none.** -/
theorem exec_counts
    (hmatch : CountsMatch s)
    (hunused : s.kernel.openFindexes (slotIn s.kprc (s.kprc.alloc 1 0).1) = [])
    (hnull : slotIn s.kdescs (s.kdescs.alloc 1 0).1 ≠ nullSlot ∨ s.kernel.NoNull) :
    CountsMatch (s.exec DEVDESC caller found) := by
  refine countsMatch_congr hmatch (alloc_length _ _) (fun q => ?_) fun _ => rfl
  by_cases hq : q = slotIn s.kprc (s.kprc.alloc 1 0).1
  · subst hq
    rw [exec_openFindexes, hunused]
  · have hother : (s.exec DEVDESC caller found).kernel.processes q = s.kernel.processes q :=
      exec_processes q hq
    refine openFindexes_congr (by rw [hother]) (by rw [hother]) fun i hi hmark => ?_
    refine findexAt_congr (by rw [hother]) ?_
    rcases hnull with hfree | hnone
    · exact .inl (congrArg Descriptor.findex (exec_null hfree))
    · exact .inr (hnone q i hi hmark)

end Launching

section Killing

variable {s : OpenTables} {pid : Nat}

/-- The loop of `PKILL` counts each file down once for each live descriptor. -/
theorem closeDescriptors_spec
    (pid : Nat) (slots : List Nat) (t : Kernel) :
    (slots.foldl (Kernel.closeDescriptor pid) t).processes = t.processes ∧
      (slots.foldl (Kernel.closeDescriptor pid) t).null = t.null ∧
      (slots.foldl (Kernel.closeDescriptor pid) t).vfs.pool = t.vfs.pool ∧
      ∀ f, ((slots.foldl (Kernel.closeDescriptor pid) t).vfs.descriptions f).listeners =
        (t.vfs.descriptions f).listeners - BitVec.ofNat 32
          (((slots.filter fun i => (t.processes pid).table.descs.ckarray i ≠ 0).map
            (t.findexAt pid)).count f) := by
  induction slots generalizing t with
  | nil => exact ⟨rfl, rfl, rfl, fun f => (BitVec.sub_zero _).symm⟩
  | cons i slots ih =>
      rw [List.foldl_cons]
      by_cases hmark : (t.processes pid).table.descs.ckarray i = 0
      · rw [Kernel.closeDescriptor, if_pos hmark, List.filter_cons_of_neg (by simp [hmark])]
        exact ih t
      · obtain ⟨hprocesses, hnull, hpool, hlisteners⟩ := ih (t.dropOpener (t.findexAt pid i))
        rw [Kernel.closeDescriptor, if_neg hmark,
          List.filter_cons_of_pos (by exact decide_eq_true hmark)]
        refine ⟨hprocesses, hnull, hpool, fun f => (hlisteners f).trans ?_⟩
        rw [List.map_cons]
        rcases eq_or_ne f (t.findexAt pid i) with rfl | hf
        · have hdrop : ((t.dropOpener (t.findexAt pid i)).vfs.descriptions
              (t.findexAt pid i)).listeners =
              (t.vfs.descriptions (t.findexAt pid i)).listeners - 1 := by
            simp [Kernel.dropOpener]
          rw [hdrop, List.count_cons_self, Nat.add_comm, BitVec.ofNat_add, BitVec.sub_sub]
          rfl
        · have hkeep : ((t.dropOpener (t.findexAt pid i)).vfs.descriptions f).listeners =
              (t.vfs.descriptions f).listeners := by
            simp [Kernel.dropOpener, Function.update_of_ne hf]
          rw [hkeep, List.count_cons_of_ne hf.symm]
          rfl

theorem pkill_listeners
    (s : OpenTables) (pid : Nat) (bytes : Nat → Byte) (f : Nat) :
    ((s.pkill pid bytes).kernel.vfs.descriptions f).listeners =
      (s.kernel.vfs.descriptions f).listeners -
        BitVec.ofNat 32 ((s.kernel.openFindexes pid).count f) :=
  (closeDescriptors_spec pid _ s.kernel).2.2.2 f

theorem pkill_processes
    (s : OpenTables) (pid : Nat) (bytes : Nat → Byte) :
    (s.pkill pid bytes).kernel.processes =
      Function.update s.kernel.processes pid (Kernel.zeroProcess bytes) := by
  rw [← (closeDescriptors_spec pid
    (List.range (s.kernel.processes pid).table.descs.length.toNat) s.kernel).1]
  rfl

/-- **`PKILL` closes what its process has open.** -/
theorem pkill_counts
    (hpid : pid < s.kprc.length.toNat)
    (hmatch : CountsMatch s)
    (bytes : Nat → Byte) :
    CountsMatch (s.pkill pid bytes) ∧ OthersKept s (.pkill pid bytes) (s.pkill pid bytes) := by
  have hprocesses := pkill_processes s pid bytes
  refine ⟨countsMatch_exchange hmatch hpid rfl ?_ ?_, ?_⟩
  · intro q hq
    have hother : (s.pkill pid bytes).kernel.processes q = s.kernel.processes q := by
      rw [hprocesses]
      exact Function.update_of_ne hq _ _
    refine openFindexes_congr (by rw [hother]) (by rw [hother]) fun i _ _ => ?_
    refine findexAt_congr (by rw [hother]) (.inl (congrArg Descriptor.findex ?_))
    exact (closeDescriptors_spec pid _ s.kernel).2.1
  · intro f
    have hnone : (s.pkill pid bytes).kernel.openFindexes pid = [] := by
      rw [Kernel.openFindexes, hprocesses, Function.update_self]
      rfl
    have hle := count_le_openCount hpid f
    rw [← hmatch f] at hle
    rw [pkill_listeners, hnone, toNat_sub_ofNat hle, List.count_nil]
    omega
  · intro f hf
    rw [pkill_listeners, List.count_eq_zero_of_not_mem hf]
    exact BitVec.sub_zero _

end Killing

section Steps

variable {k : Constants} {DEVDESC : Word} {s s' : OpenTables} {op : OpenCountOp}

theorem regular_exec
    {caller : Nat} {found : ExecFound}
    (hregular : Regular s.kernel) :
    Regular (s.exec DEVDESC caller found).kernel := by
  have hmade : ∀ p : Process, p.table.descs.type = .POINTER → p.table.descs.stride = 8 →
      Regular (s.kernel.setProcess (slotIn s.kprc (s.kprc.alloc 1 0).1) p) :=
    fun p htype hstride => hregular.setProcess htype hstride
  -- the word at address 0 is not a table
  exact ⟨fun q => (hmade _ rfl rfl).type q, fun q => (hmade _ rfl rfl).stride q,
    hregular.aligned⟩

theorem regular_pkill
    {pid : Nat} {bytes : Nat → Byte}
    (hregular : Regular s.kernel) :
    Regular (s.pkill pid bytes).kernel := by
  obtain ⟨hprocesses, -, hpool, -⟩ := closeDescriptors_spec pid
    (List.range (s.kernel.processes pid).table.descs.length.toNat) s.kernel
  refine Regular.pkill ⟨fun q => ?_, fun q => ?_, ?_, ?_⟩ pid bytes
  · rw [hprocesses]
    exact hregular.type q
  · rw [hprocesses]
    exact hregular.stride q
  · rw [hpool]
    exact hregular.aligned.pool
  · rw [hpool]
    exact hregular.aligned.stride

/-- The tables stay those that `exec` makes. -/
theorem regular_openCountStep
    (hregular : Regular s.kernel)
    (hstep : OpenCountStep k DEVDESC s op s') :
    Regular s'.kernel := by
  cases op with
  | sysopen pid call =>
      obtain ⟨-, fuel, r, hopen, rfl⟩ := hstep
      exact hregular.sysopen hopen
  | sysclose pid desc =>
      obtain ⟨-, rfl⟩ := hstep
      exact hregular.sysclose pid desc
  | exec pid refused found =>
      obtain ⟨-, rfl⟩ := hstep
      cases refused with
      | true => exact hregular
      | false => exact regular_exec hregular
  | pkill pid bytes =>
      obtain ⟨-, rfl⟩ := hstep
      exact regular_pkill hregular

/-- **A step that meets the condition keeps the counters right.** -/
theorem openCountStep_kept
    (hregular : Regular s.kernel)
    (hmatch : CountsMatch s)
    (hsafe : OpenSafe s op)
    (hstep : OpenCountStep k DEVDESC s op s') :
    CountsMatch s' ∧ OthersKept s op s' := by
  cases op with
  | sysopen pid call =>
      obtain ⟨-, fuel, r, hopen, hs'⟩ := hstep
      exact ⟨sysopen_counts hregular hmatch hsafe hopen hs', trivial⟩
  | sysclose pid desc =>
      obtain ⟨hpid, hs'⟩ := hstep
      exact sysclose_counts hregular hpid hmatch hsafe hs'
  | exec pid refused found =>
      obtain ⟨-, rfl⟩ := hstep
      cases refused with
      | true => exact ⟨hmatch, trivial⟩
      | false =>
          obtain ⟨hunused, hnull⟩ := hsafe.resolve_left Bool.false_ne_true
          exact ⟨exec_counts hmatch hunused hnull, trivial⟩
  | pkill pid bytes =>
      obtain ⟨hpid, rfl⟩ := hstep
      exact pkill_counts hpid hmatch bytes

/--
**Open counts stay right along every run whose closes are refused, or close
descriptor 0 of the file that address 0 names, and in which no descriptor that is a
null pointer or lies in a slot that is handed out is live.**
-/
theorem open_counts_of_stepsMeet
    {run : List (OpenCountOp × OpenTables)}
    (hregular : Regular s.kernel)
    (hmatch : CountsMatch s)
    (hrun : Run (OpenCountStep k DEVDESC) s run)
    (hmeet : StepsMeet OpenSafe s run) :
    Always CountsMatch s run ∧ EveryStep OthersKept s run := by
  have hkeep : ∀ s op s', Regular s.kernel ∧ CountsMatch s → OpenSafe s op →
      OpenCountStep k DEVDESC s op s' → Regular s'.kernel ∧ CountsMatch s' :=
    fun s op s' hinv hsafe hstep =>
      ⟨regular_openCountStep hinv.1 hstep, (openCountStep_kept hinv.1 hinv.2 hsafe hstep).1⟩
  constructor
  · exact (always_of_stepsMeet hkeep hrun ⟨hregular, hmatch⟩ hmeet).mono fun _ h => h.2
  · refine everyStep_of_stepsMeet hkeep ?_ hrun ⟨hregular, hmatch⟩ hmeet
    exact fun s op s' hinv hsafe hstep => (openCountStep_kept hinv.1 hinv.2 hsafe hstep).2

end Steps

/-- One process whose descriptors 0 and 1 are open on file 1. -/
def twoOpen : OpenTables where
  kernel :=
    { vfs := { nestedFiles with descriptions := fun f =>
        { nestedFiles.descriptions f with listeners := if f = 1 then 2 else 0 } }
      processes := fun _ =>
        { nestedProcess with entries := fun i => if i < 2 then some ⟨1, 0, 0⟩ else none }
      null := ⟨0, 0, 0⟩ }
  kprc := ⟨.POINTER, 1, 1, fun _ => 1, 0x1000, 8⟩
  kdescs := ⟨.POINTER, 2, 2, fun _ => 1, 0x2000, 8⟩

theorem twoOpen_regular : Regular twoOpen.kernel :=
  ⟨fun _ => rfl, fun _ => rfl, by decide, by decide⟩

theorem twoOpen_match : CountsMatch twoOpen := by
  intro f
  have hopen : twoOpen.kernel.openFindexes 0 = [1, 1] := by decide
  have hone : twoOpen.kprc.length.toNat = 1 := rfl
  rw [OpenTables.openCount, hone, Finset.sum_range_one, hopen]
  by_cases hf : f = 1
  · subst hf
    rfl
  · rw [List.count_eq_zero_of_not_mem (by simp [hf])]
    exact congrArg BitVec.toNat (if_neg hf)

/-- Killing the process. -/
def killRun : List (OpenCountOp × OpenTables) :=
  [(.pkill 0 fun _ => 0, twoOpen.pkill 0 fun _ => 0)]

theorem run_killRun : Run (OpenCountStep ⟨0, 0, 0⟩ 1) twoOpen killRun :=
  .cons ⟨by decide, rfl⟩ (.nil _)

theorem open_counts_of_stepsMeet_kill :
    Always CountsMatch twoOpen killRun ∧ EveryStep OthersKept twoOpen killRun :=
  open_counts_of_stepsMeet twoOpen_regular twoOpen_match run_killRun ⟨trivial, trivial⟩

/-- Closing descriptor 0, of file 1, counts file 0 down, which nobody has open. -/
theorem close_counts_wrong :
    ¬ ∀ (k : Constants) (DEVDESC : Word) (s : OpenTables) (run : List (OpenCountOp × OpenTables)),
      Regular s.kernel → CountsMatch s → Run (OpenCountStep k DEVDESC) s run →
        Always CountsMatch s run ∧ EveryStep OthersKept s run := by
  intro hright
  have hstep : OpenCountStep ⟨0, 0, 0⟩ 1 twoOpen (.sysclose 0 0)
      { twoOpen with kernel := (twoOpen.kernel.sysclose 0 0).2 } := ⟨by decide, rfl⟩
  obtain ⟨-, hkept, -⟩ := hright ⟨0, 0, 0⟩ 1 twoOpen _ twoOpen_regular twoOpen_match
    (.cons hstep (.nil _))
  exact absurd (hkept 0 (by decide)) (by decide)

end Filesystem
end BestKernel
