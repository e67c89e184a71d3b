import BestKernel.Filesystem.References
import Mathlib.Data.Set.Basic

/-!
# The files that descriptors reach

`SYSOPEN` keeps what `open` returns, and that is the address of one of the first three
files, whichever file the path names.  So along a run the calls reach the files that they
reached from the start, the three slots that those addresses are the numbers of, and the
slot 0 (`files_reached_fixed`).  No other file can be opened, and none that a disk brings.
-/

namespace BestKernel
namespace Filesystem

open Machine
open Runs

namespace Vfs

section Codes

variable {vfs : Vfs} {path : Nat → Byte}
  {recurse : Nat → Nat → Reached → Option (Nat × Reached)}

theorem nameLoop_code
    {start test fuel o code : Nat} {r r' : Reached}
    (h : vfs.nameLoop path recurse start test fuel o r = some (some code, r')) :
    code < 3 := by
  induction fuel generalizing o r with
  | zero => cases h
  | succ fuel ih =>
      rw [nameLoop] at h
      split_ifs at h
      · cases h
      · cases h
        decide
      · cases h
        decide
      · split at h
        · cases h
        · exact ih h
      · exact ih h

theorem childLoop_code
    {fuel start dir left i p : Nat} {r r' : Reached}
    (h : vfs.childLoop path recurse fuel start dir left i r = some (p, r')) :
    p < 3 := by
  induction left generalizing i r with
  | zero =>
      cases h
      decide
  | succ left ih =>
      rw [childLoop] at h
      split_ifs at h
      · exact ih h
      · split at h
        · cases h
        · rename_i code r'' hname
          cases h
          exact nameLoop_code hname
        · exact ih h

/-- What `open` finds is one of the first three files. -/
theorem openFile_code
    {fuel dir_index p : Nat} {r r' : Reached}
    (h : vfs.openFile path fuel dir_index r = some (some p, r')) :
    p < 3 := by
  unfold openFile at h
  split_ifs at h
  · cases h
  · split at h
    · cases h
    · rename_i p' r'' hsearch
      cases h
      cases fuel with
      | zero => cases hsearch
      | succ fuel => exact childLoop_code hsearch

end Codes

/-- The slots that are numbered by the addresses of the first three files, and by the null
pointer. -/
def errorFiles (vfs : Vfs) : Set Nat :=
  {f | f = 0 ∨ ∃ p, p < 3 ∧ f = (vfs.fileAddress (some p)).toNat}

theorem openFile_errorFiles
    {vfs : Vfs} {path : Nat → Byte} {fuel dir_index : Nat} {file : Option Nat} {r r' : Reached}
    (h : vfs.openFile path fuel dir_index r = some (file, r')) :
    (vfs.fileAddress file).toNat ∈ vfs.errorFiles := by
  cases file with
  | none => exact .inl rfl
  | some p => exact .inr ⟨p, openFile_code h, rfl⟩

end Vfs

/-- The files that a call with a descriptor may go to. -/
def Kernel.reached (s : Kernel) : Set Nat :=
  {f | f = s.null.findex.toNat ∨ ∃ pid desc, f = s.fileOf pid desc}

section Steps

variable {k : Constants} {s s' : Kernel} {files : Set Nat}

theorem reached_subset_iff :
    s.reached ⊆ files ↔ s.null.findex.toNat ∈ files ∧ ∀ pid desc, s.fileOf pid desc ∈ files := by
  constructor
  · intro h
    exact ⟨h (.inl rfl), fun pid desc => h (.inr ⟨pid, desc, rfl⟩)⟩
  · rintro ⟨hnull, hdescs⟩ f (rfl | ⟨pid, desc, rfl⟩)
    · exact hnull
    · exact hdescs pid desc

/-- Writing a descriptor, to a file among the others. -/
theorem reached_writeDescriptor
    (write : Descriptor → Descriptor)
    (hwrite : ∀ x : Descriptor, x.findex.toNat ∈ files → (write x).findex.toNat ∈ files)
    (h : s.reached ⊆ files)
    (pid : Nat) (slot : Option Nat) :
    (s.writeDescriptor pid slot write).reached ⊆ files := by
  obtain ⟨hnull, hdescs⟩ := reached_subset_iff.mp h
  refine reached_subset_iff.mpr ?_
  cases slot with
  | none =>
      refine ⟨hwrite _ hnull, fun q desc => ?_⟩
      have hold := hdescs q desc
      unfold Kernel.fileOf Kernel.descriptorOf at hold ⊢
      change (((s.processes q).entries desc.toNat).getD (write s.null)).findex.toNat ∈ files
      cases hentry : (s.processes q).entries desc.toNat with
      | none => exact hwrite _ hnull
      | some x =>
          rw [hentry] at hold
          exact hold
  | some i =>
      refine ⟨hnull, fun q desc => ?_⟩
      have hold := hdescs q desc
      by_cases hslot : q = pid ∧ desc.toNat = i
      · obtain ⟨rfl, rfl⟩ := hslot
        unfold Kernel.fileOf Kernel.descriptorOf Kernel.writeDescriptor
        dsimp only
        rw [setProcess_self]
        dsimp only
        rw [Function.update_self]
        exact hwrite _ hold
      · have hentries : ((s.writeDescriptor pid (some i) write).processes q).entries desc.toNat =
            (s.processes q).entries desc.toNat :=
          writeDescriptor_entries fun hq heq => hslot ⟨hq, (Option.some.inj heq).symm⟩
        unfold Kernel.fileOf Kernel.descriptorOf
        rw [hentries]
        exact hold

/-- A process whose descriptors are those that it had, or none. -/
theorem reached_setProcess
    {pid : Nat} {p : Process}
    (hentries : ∀ i, p.entries i = (s.processes pid).entries i ∨ p.entries i = none)
    (h : s.reached ⊆ files) :
    (s.setProcess pid p).reached ⊆ files := by
  obtain ⟨hnull, hdescs⟩ := reached_subset_iff.mp h
  refine reached_subset_iff.mpr ⟨hnull, fun q desc => ?_⟩
  have hold := hdescs q desc
  unfold Kernel.fileOf Kernel.descriptorOf at hold ⊢
  by_cases hq : q = pid
  · subst hq
    rw [setProcess_self]
    rcases hentries desc.toNat with hsame | hnone
    · rw [hsame]
      exact hold
    · rw [hnone]
      exact hnull
  · rw [setProcess_of_ne _ hq]
    exact hold

/-- **`SYSOPEN` adds the slots of the error codes.** -/
theorem reached_sysopen
    {pid fuel : Nat} {call : OpenCall} {r : OpenResult}
    (haligned : s.vfs.Aligned)
    (hfiles : s.vfs.errorFiles ⊆ files)
    (h : s.reached ⊆ files)
    (hopen : s.sysopen k pid call fuel = some r) :
    r.kernel.reached ⊆ files := by
  cases hguard : (s.processes pid).table.refuses call.dir_descriptor .SYSOPEN with
  | true =>
      rw [sysopen_refused hguard] at hopen
      cases hopen
      exact h
  | false =>
      rw [Kernel.sysopen, hguard, if_neg Bool.false_ne_true] at hopen
      obtain ⟨⟨file, reached⟩, hfound, heq⟩ := Option.map_eq_some_iff.mp hopen
      have htaken : (s.takeDescriptor pid call.tryn).2.reached ⊆ files :=
        reached_setProcess (fun _ => .inl rfl) h
      have haddress := hfiles (Vfs.openFile_errorFiles hfound)
      have haligned' : (s.takeDescriptor pid call.tryn).2.vfs.Aligned := haligned
      have hfinish : (s.takeDescriptor pid call.tryn).2.finishOpen k pid call
          (s.takeDescriptor pid call.tryn).1 file reached = _ :=
        finishOpen_eq haligned' _ file reached
      rw [heq.symm.trans hfinish]
      dsimp only
      have hfindex := reached_writeDescriptor
        (fun newdesc => { newdesc with
          findex := (s.takeDescriptor pid call.tryn).2.vfs.fileAddress file })
        (fun _ _ => haddress) htaken pid (s.takeDescriptor pid call.tryn).1
      apply reached_writeDescriptor _ _ hfindex
      exact fun _ hx => hx

theorem sysclose_address
    (pid : Nat) (desc : Half) (file : Option Nat) :
    (s.sysclose pid desc).2.vfs.fileAddress file = s.vfs.fileAddress file := by
  unfold Vfs.fileAddress
  rw [sysclose_pool]

theorem reached_sysclose
    (pid : Nat) (desc : Half)
    (h : s.reached ⊆ files) :
    (s.sysclose pid desc).2.reached ⊆ files := by
  unfold Kernel.sysclose
  dsimp only
  split_ifs
  · exact h
  · refine reached_setProcess (fun i => ?_) h
    dsimp only
    rw [Function.update_apply]
    split_ifs
    · exact .inr rfl
    · exact .inl rfl

end Steps

section Runs

variable {k : Constants} {s : Tracked}

/-- What a step keeps of the files that are reached. -/
structure ReachesOnly (files : Set Nat) (s : Kernel) : Prop where
  regular : Regular s
  errors : s.vfs.errorFiles ⊆ files
  reached : s.reached ⊆ files

theorem reachesOnly_remove
    {files : Set Nat} {s : Kernel}
    (h : ReachesOnly files s)
    (file : Nat) :
    ReachesOnly files (s.remove file) :=
  ⟨h.regular.remove file, h.errors, h.reached⟩

theorem reachesOnly_step
    {files : Set Nat} {s s' : Tracked} {op : ReferenceOp}
    (h : ReachesOnly files s.kernel)
    (hstep : ReferenceStep k s op s') :
    ReachesOnly files s'.kernel := by
  have hregular := regular_step h.regular hstep
  cases op with
  | sysopen pid call =>
      obtain ⟨fuel, r, hopen, hkernel, -, -⟩ := hstep
      rw [hkernel] at hregular ⊢
      obtain ⟨-, hvfs⟩ := sysopen_vfs h.regular.aligned hopen
      refine ⟨hregular, ?_, reached_sysopen h.regular.aligned h.errors h.reached hopen⟩
      rw [hvfs]
      exact h.errors
  | sysclose pid desc =>
      obtain rfl := hstep
      refine ⟨hregular, ?_, reached_sysclose pid desc h.reached⟩
      unfold Vfs.errorFiles
      dsimp only
      simp only [sysclose_address]
      exact h.errors
  | rmfile pid desc =>
      obtain rfl := hstep
      unfold Tracked.afterRemoval Kernel.rmfile
      dsimp only
      split_ifs
      · exact h
      · exact h
      · exact reachesOnly_remove h _
  | rmdir pid desc =>
      obtain rfl := hstep
      unfold Tracked.afterRemoval Kernel.rmdir
      dsimp only
      split_ifs
      · exact h
      · exact h
      · exact h
      · exact reachesOnly_remove h _
  | exit pid bytes =>
      obtain rfl := hstep
      exact ⟨hregular, h.errors, reached_setProcess (fun _ => .inr rfl) h.reached⟩

/--
**No call ever opens a file.**  Whatever paths are opened, and whatever is closed, removed
or ended in between, descriptors refer to the files that they referred to at the start and
to the slots numbered by four pointers, which do not depend on the paths.
-/
theorem files_reached_fixed
    {run : List (ReferenceOp × Tracked)}
    (hregular : Regular s.kernel)
    (hrun : Run (ReferenceStep k) s run) :
    Always (fun t => t.kernel.reached ⊆ s.kernel.reached ∪ s.kernel.vfs.errorFiles) s run := by
  have hstart : ReachesOnly (s.kernel.reached ∪ s.kernel.vfs.errorFiles) s.kernel :=
    ⟨hregular, Set.subset_union_right, Set.subset_union_left⟩
  have halways : Always (fun t : Tracked =>
      ReachesOnly (s.kernel.reached ∪ s.kernel.vfs.errorFiles) t.kernel) s run :=
    always_of_preserved (fun t op t' ht hstep => reachesOnly_step ht hstep) hrun hstart
  exact halways.mono fun t ht => ht.reached

/-- The file 1 is asked for by its name. -/
theorem files_reached_fixed_nested :
    ∃ t, Run (ReferenceStep rootZero) nestedTracked [(ReferenceOp.sysopen 0 (openA 0), t)] ∧
      Always (fun t => t.kernel.reached ⊆
        nestedTracked.kernel.reached ∪ nestedTracked.kernel.vfs.errorFiles) nestedTracked
        [(ReferenceOp.sysopen 0 (openA 0), t)] := by
  obtain ⟨r, hopen⟩ : ∃ r, nestedKernel.sysopen rootZero 0 (openA 0) 4 = some r := ⟨_, rfl⟩
  have hstep : ReferenceStep rootZero nestedTracked (.sysopen 0 (openA 0))
      { nestedTracked with kernel := r.kernel } :=
    ⟨4, r, hopen, rfl, fun _ _ => rfl, fun _ _ _ => rfl⟩
  have hrun := Run.cons hstep (Run.nil _)
  exact ⟨_, hrun, files_reached_fixed nestedTracked_regular hrun⟩

end Runs

end Filesystem
end BestKernel
