import BestKernel.Filesystem.OpenCounts
import Mathlib.Logic.Relation

/-!
# Changing the root

`SYS_CHROOT` opens its path from the file 0 and takes the pointer that it gets for an
error: it reports 3 for every path as long as the file 0 is there, and success when it is
not.  It stores nothing, so that a process whose call succeeds goes on with the
descriptors that it had.

`chroot_confines_iff` says what is left of the promise: the call is right when the root is
there and the path names no directory, or when the root is not there and the process can
open no file at all.

Readings of the source.  The path is the string behind the translated pointer, and
`CONDITIONAL_SYSRET` returns for every pointer but the null one.  An absolute path starts
from the file 0, and slashes at its ends or in a row do not count.  A process obtains the
file whose pointer `SYSOPEN` keeps in the new descriptor, or the file that it creates.
-/

namespace BestKernel
namespace Filesystem

open Machine
open Kontrol
open Runs
open Syscalls (DescriptorTable DIRECTORY)

/-- The arguments of a call, and the out parameters of `open` before it. -/
structure ChrootCall where
  true_path : Word
  path : Nat → Byte
  reached : Reached

/-- The loop over the length, with `left` characters to look at from `g` on: whether it
breaks before `g == 4095` makes the call return. -/
def lengthLoop (path : Nat → Byte) : Nat → Nat → Bool
  | 0, _ => false
  | left + 1, g => if path g = 0 then true else lengthLoop path left (g + 1)

/-- `SYS_CHROOT`: what it stores in `sys_retval`, and the kernel behind it; `none` while
`open` has not ended. -/
def Kernel.sysChroot (s : Kernel) (call : ChrootCall) (fuel : Nat) : Option (Nat × Kernel) :=
  if call.true_path = 0 then some (1, s)
  else if lengthLoop call.path 4096 0 = false then some (2, s)
  else
    (s.vfs.openFile call.path fuel 0 call.reached).map fun (file, _) =>
      if s.vfs.fileAddress file ≠ 0 then (3, s) else (0, s)

section Promise

/-- The components of an absolute path. -/
def absoluteComponents (text : List Byte) : List (List Byte) :=
  (text.splitOn slash).filter (· ≠ [])

/-- The path is one that the call can be given, and names an existing directory. -/
structure NamesDirectory (vfs : Vfs) (call : ChrootCall) (text : List Byte) (dir : Nat) : Prop where
  mapped : call.true_path ≠ 0
  string : StringAt call.path 0 text
  short : text.length < 4096
  root : vfs.pool.ckarray 0 ≠ 0
  resolves : vfs.resolve 0 (absoluteComponents text) = .found dir
  directory : (vfs.descriptions dir).data.type = DIRECTORY

/-- The directory or a descendant of it. -/
def Below (vfs : Vfs) (dir f : Nat) : Prop :=
  Relation.ReflTransGen (fun d child => child ∈ vfs.liveChildren d) dir f

variable (k : Constants)

/-- A call of `SYSOPEN` that has ended. -/
def OpenStep (pid : Nat) (s : Kernel) (call : OpenCall) (s' : Kernel) : Prop :=
  ∃ fuel r, s.sysopen k pid call fuel = some r ∧ s' = r.kernel

/-- A call passes its guard and gets the file `f` from `open`, or creates it. -/
def Obtains (pid : Nat) (s : Kernel) (call : OpenCall) (f : Nat) : Prop :=
  (s.processes pid).table.refuses call.dir_descriptor .SYSOPEN = false ∧
    ∃ fuel,
      (∃ reached,
        s.vfs.openFile call.path fuel (s.descriptorOf pid call.dir_descriptor).findex.toNat
          call.reached = some (some f, reached)) ∨
      ∃ r, s.sysopen k pid call fuel = some r ∧ r.created = some f

/-- What a result promises. -/
structure ChrootRight (s : Kernel) (pid : Nat) (call : ChrootCall) (result : Nat × Kernel) :
    Prop where
  confines :
    result.1 = 0 →
      AlwaysFrom (OpenStep k pid)
        (fun s' => ∀ open_call f, Obtains k pid s' open_call f →
          ∃ text dir, NamesDirectory s.vfs call text dir ∧ Below s'.vfs dir f)
        result.2
  unchanged : result.1 ≠ 0 → result.2.processes pid = s.processes pid
  accepts : (∃ text dir, NamesDirectory s.vfs call text dir) → result.1 = 0

/-- The call ends, and its result keeps the promise. -/
def ChrootConfines (s : Kernel) (pid : Nat) (call : ChrootCall) : Prop :=
  ∃ enough result,
    (∀ fuel, enough ≤ fuel → s.sysChroot call fuel = some result) ∧
      ChrootRight k s pid call result

/-- Some marked descriptor refers to a live file, and the guard lets it through, or will
once the calls through another descriptor have counted up far enough. -/
def CanObtain (pid : Nat) (s : Kernel) : Prop :=
  ∃ e : Half,
    (s.processes pid).table.descs.ckarray e.toNat ≠ 0 ∧
      s.vfs.pool.ckarray (s.descriptorOf pid e).findex.toNat ≠ 0 ∧
        (e < (s.processes pid).table.descs.count ∨
          e.toNat + 1 < 2 ^ 32 ∧
            (∃ d, (s.processes pid).table.refuses d .SYSOPEN = false) ∧
              HasFree (s.processes pid).table.descs)

/-- The calls that are right: while the root is there the path must name no directory, and
while it is not, a path that is read must not let the process obtain any file. -/
structure ChrootSafe (s : Kernel) (pid : Nat) (call : ChrootCall) : Prop where
  root : s.vfs.pool.ckarray 0 ≠ 0 → ∀ text dir, ¬ NamesDirectory s.vfs call text dir
  rootless :
    s.vfs.pool.ckarray 0 = 0 → call.true_path ≠ 0 → lengthLoop call.path 4096 0 = true →
      ¬ CanObtain pid s

/-- The pool of files starts behind address 0, and the files of the error codes do not
reach around to it. -/
structure Vfs.Placed (vfs : Vfs) : Prop where
  base : vfs.pool.pool ≠ 0
  top : vfs.pool.pool.toNat + 2 * vfs.pool.stride.toNat < 2 ^ 64

end Promise

section Strings

variable {path : Nat → Byte}

/-- The loop over the length looks for the end of a string. -/
theorem lengthLoop_iff
    {left g : Nat} :
    lengthLoop path left g = true ↔ ∃ text, StringAt path g text ∧ text.length < left := by
  induction left generalizing g with
  | zero => simp [lengthLoop]
  | succ left ih =>
      rw [lengthLoop]
      by_cases hend : path g = 0
      · simp only [hend, if_true, true_iff]
        exact ⟨[], hend, Nat.succ_pos _⟩
      · rw [if_neg hend, ih]
        constructor
        · rintro ⟨text, hstring, hlength⟩
          exact ⟨path g :: text, ⟨rfl, hend, hstring⟩, Nat.succ_lt_succ hlength⟩
        · rintro ⟨text, hstring, hlength⟩
          cases text with
          | nil => exact absurd hstring hend
          | cons b text => exact ⟨text, hstring.2.2, Nat.lt_of_succ_lt_succ hlength⟩

end Strings

section Search

variable {vfs : Vfs} {path : Nat → Byte} {text : List Byte}
  {recurse : Nat → Nat → Reached → Option (Nat × Reached)}

/-- A search that has ended, with 0 or one of the error codes. -/
def Ended (result : Option (Nat × Reached)) : Prop :=
  ∃ code r, result = some (code, r) ∧ code ≤ 2

/-- The comparison with a name ends within the rest of the path. -/
theorem nameLoop_ends
    {start fuel : Nat} (test o : Nat) (r : Reached)
    (hrecurse : ∀ start' rest test' r', StringAt path start' rest →
      rest.length < text.length → Ended (recurse start' test' r'))
    (hpath : StringAt path (start + o) text)
    (hfuel : text.length < fuel) :
    ∃ found r', vfs.nameLoop path recurse start test fuel o r = some (found, r') ∧
      ∀ code, found = some code → code ≤ 2 := by
  induction fuel generalizing o text r with
  | zero => exact absurd hfuel (Nat.not_lt_zero _)
  | succ fuel ih =>
      cases text with
      | nil =>
          have hend : path (start + o) = 0 := hpath
          rw [Vfs.nameLoop]
          split_ifs
          · exact ⟨none, r, rfl, by simp⟩
          · exact ⟨some 0, _, rfl, by simp⟩
      | cons b rest =>
          obtain ⟨hb, hb0, hrest⟩ := hpath
          have hnext : ∀ r, ∃ found r',
              vfs.nameLoop path recurse start test fuel (o + 1) r = some (found, r') ∧
                ∀ code, found = some code → code ≤ 2 := by
            intro r
            have hshifted : StringAt path (start + (o + 1)) rest := by
              simpa [Nat.add_assoc] using hrest
            refine ih (o + 1) r (fun start' rest' test' r' hstring hlength => ?_) hshifted
              (Nat.lt_of_succ_lt_succ hfuel)
            exact hrecurse start' rest' test' r' hstring (Nat.lt_succ_of_lt hlength)
          rw [Vfs.nameLoop]
          split_ifs with hne hzero hslash htype
          · exact ⟨none, r, rfl, by simp⟩
          · exact ⟨some 0, _, rfl, by simp⟩
          · exact ⟨some NOTA_DIR, r, rfl, fun code hcode => by cases hcode; decide⟩
          · obtain ⟨code, r', hended, -⟩ :=
              hrecurse (start + o + 1) rest test r hrest (Nat.lt_succ_self _)
            rw [hended]
            exact hnext r'
          · exact hnext r

theorem childLoop_ends
    {start dir fuel left i : Nat} {r : Reached}
    (hrecurse : ∀ start' rest test' r', StringAt path start' rest →
      rest.length < text.length → Ended (recurse start' test' r'))
    (hpath : StringAt path start text)
    (hfuel : text.length < fuel) :
    Ended (vfs.childLoop path recurse fuel start dir left i r) := by
  induction left generalizing i r with
  | zero => exact ⟨NO_MATCHING_FILENAME, r, rfl, Nat.le_refl 2⟩
  | succ left ih =>
      rw [Vfs.childLoop]
      split_ifs with hfree
      · exact ih
      · obtain ⟨found, r', hname, hcode⟩ :=
          nameLoop_ends ((vfs.descriptions dir).entries i) 0 r hrecurse hpath hfuel
        rw [hname]
        cases found with
        | none => exact ih
        | some code => exact ⟨code, r', rfl, hcode code rfl⟩

/-- **A search along a string ends**, whatever the names are. -/
theorem recurseDirectories_ends
    {fuel start : Nat} (dir : Nat) (r : Reached)
    (hpath : StringAt path start text)
    (hfuel : text.length + 2 ≤ fuel) :
    Ended (vfs.recurseDirectories path fuel start dir r) := by
  induction fuel generalizing start dir r text with
  | zero => omega
  | succ fuel ih =>
      rw [Vfs.recurseDirectories]
      refine childLoop_ends (fun start' rest test' r' hstring hlength => ?_) hpath (by omega)
      exact ih test' r' hstring (by omega)

/-- `open` gives a file exactly where its directory is live. -/
theorem openFile_ends
    {fuel dir : Nat} (r : Reached)
    (hpath : StringAt path 0 text)
    (hfuel : text.length + 2 ≤ fuel)
    (hlive : vfs.pool.ckarray dir ≠ 0) :
    ∃ code r', vfs.openFile path fuel dir r = some (some code, r') ∧ code ≤ 2 := by
  obtain ⟨code, r', hended, hcode⟩ :=
    recurseDirectories_ends dir r hpath hfuel
  exact ⟨code, r', by rw [Vfs.openFile, if_neg hlive, hended], hcode⟩

theorem openFile_dead
    {dir : Nat}
    (hdead : vfs.pool.ckarray dir = 0)
    (path : Nat → Byte) (fuel : Nat) (r : Reached) :
    vfs.openFile path fuel dir r = some (none, r) := by
  rw [Vfs.openFile, if_pos hdead]

/-- The files of the error codes do not lie at address 0. -/
theorem fileAddress_ne_zero
    (h : vfs.Placed)
    {code : Nat}
    (hcode : code ≤ 2) :
    vfs.fileAddress (some code) ≠ 0 := by
  have hbase : vfs.pool.pool.toNat ≠ 0 := fun hnull => h.base (BitVec.eq_of_toNat_eq hnull)
  have hoffset : vfs.pool.stride.toNat * code ≤ 2 * vfs.pool.stride.toNat := by
    rw [Nat.mul_comm 2]
    exact Nat.mul_le_mul_left _ hcode
  have htop := h.top
  have hsmall : code % 2 ^ 64 = code := Nat.mod_eq_of_lt (by omega)
  have haddress : (vfs.fileAddress (some code)).toNat =
      vfs.pool.pool.toNat + vfs.pool.stride.toNat * code := by
    rw [Vfs.fileAddress, BitVec.toNat_add, BitVec.toNat_mul, BitVec.toNat_ofNat, hsmall,
      Nat.mod_eq_of_lt (a := vfs.pool.stride.toNat * code) (by omega), Nat.mod_eq_of_lt (by omega)]
  intro hzero
  have hnull : (0 : Word).toNat = 0 := rfl
  rw [hzero, hnull] at haddress
  omega

end Search

section Call

variable {s : Kernel}

/-- What `SYS_CHROOT` reports: 3 whenever there is a root. -/
def chrootCode (vfs : Vfs) (call : ChrootCall) : Nat :=
  if call.true_path = 0 then 1
  else if lengthLoop call.path 4096 0 = false then 2
  else if vfs.pool.ckarray 0 ≠ 0 then 3
  else 0

/-- The call ends, and stores nothing. -/
theorem sysChroot_eq
    (call : ChrootCall)
    (hplaced : s.vfs.Placed) :
    ∃ enough, ∀ fuel, enough ≤ fuel →
      s.sysChroot call fuel = some (chrootCode s.vfs call, s) := by
  unfold chrootCode
  by_cases hmapped : call.true_path = 0
  · exact ⟨0, fun fuel _ => by rw [Kernel.sysChroot, if_pos hmapped, if_pos hmapped]⟩
  simp only [Kernel.sysChroot, if_neg hmapped]
  by_cases hlength : lengthLoop call.path 4096 0 = false
  · exact ⟨0, fun fuel _ => by rw [if_pos hlength, if_pos hlength]⟩
  simp only [if_neg hlength]
  by_cases hroot : s.vfs.pool.ckarray 0 = 0
  · refine ⟨0, fun fuel _ => ?_⟩
    rw [openFile_dead hroot, if_neg (not_not.mpr hroot)]
    rfl
  · obtain ⟨text, hstring, -⟩ := lengthLoop_iff.mp (eq_true_of_ne_false hlength)
    refine ⟨text.length + 2, fun fuel hfuel => ?_⟩
    obtain ⟨code, r', hopen, hcode⟩ :=
      openFile_ends call.reached hstring hfuel hroot
    rw [hopen, if_pos hroot, Option.map_some, if_pos (fileAddress_ne_zero hplaced hcode)]

theorem chrootCode_eq_zero_iff
    (vfs : Vfs) (call : ChrootCall) :
    chrootCode vfs call = 0 ↔
      vfs.pool.ckarray 0 = 0 ∧ call.true_path ≠ 0 ∧ lengthLoop call.path 4096 0 = true := by
  unfold chrootCode
  split_ifs with hmapped hlength hroot
  · simp [hmapped]
  · simp [hlength]
  · exact ⟨fun h => absurd h (by decide), fun h => absurd h.1 hroot⟩
  · simp only [true_iff]
    exact ⟨not_not.mp hroot, hmapped, eq_true_of_ne_false hlength⟩

end Call

section Opens

variable {k : Constants} {s s' : Kernel} {pid : Nat} {open_call : OpenCall}

/-- A call whose directory is dead: the pointer that is kept is the null one. -/
theorem sysopen_dead
    (open_call : OpenCall) (fuel : Nat)
    (hregular : Regular s)
    (hpasses : (s.processes pid).table.refuses open_call.dir_descriptor .SYSOPEN = false)
    (hdead :
      s.vfs.pool.ckarray (s.descriptorOf pid open_call.dir_descriptor).findex.toNat = 0) :
    s.sysopen k pid open_call fuel =
      some ⟨none, none,
        ((s.takeDescriptor pid open_call.tryn).2.writeDescriptor pid
            (s.takeDescriptor pid open_call.tryn).1 fun newdesc =>
              { newdesc with findex := 0 }).writeDescriptor pid
          (s.takeDescriptor pid open_call.tryn).1 fun newdesc =>
            { newdesc with flags := open_call.flags }⟩ := by
  have haligned : (s.takeDescriptor pid open_call.tryn).2.vfs.Aligned := hregular.aligned
  have hopen : (s.takeDescriptor pid open_call.tryn).2.vfs.openFile open_call.path fuel
      (s.descriptorOf pid open_call.dir_descriptor).findex.toNat open_call.reached = _ :=
    openFile_dead hdead _ _ _
  rw [Kernel.sysopen, hpasses, if_neg Bool.false_ne_true]
  dsimp only
  rw [hopen, Option.map_some, finishOpen_eq haligned]
  rfl

/-- What such a call leaves of the table and of what its marked descriptors refer to. -/
theorem openStep_dead
    (hregular : Regular s)
    (hpasses : (s.processes pid).table.refuses open_call.dir_descriptor .SYSOPEN = false)
    (hdead :
      s.vfs.pool.ckarray (s.descriptorOf pid open_call.dir_descriptor).findex.toNat = 0)
    (hstep : OpenStep k pid s open_call s') :
    (s'.processes pid).table.descs.ckarray = (s.processes pid).table.descs.ckarray ∧
      (s'.processes pid).table.descs.length = (s.processes pid).table.descs.length ∧
      (HasFree (s.processes pid).table.descs ∧
          (s'.processes pid).table.descs.count = (s.processes pid).table.descs.count + 1 ∧
          (∀ e : Half, (s.processes pid).table.descs.ckarray e.toNat ≠ 0 →
            s'.descriptorOf pid e = s.descriptorOf pid e) ∨
        ¬ HasFree (s.processes pid).table.descs ∧
          (s'.processes pid).table.descs.count = (s.processes pid).table.descs.count ∧
          ∀ e : Half, s'.descriptorOf pid e = s.descriptorOf pid e ∨
            (s'.descriptorOf pid e).findex = 0) := by
  obtain ⟨fuel, r, hopen, rfl⟩ := hstep
  rw [sysopen_dead open_call fuel hregular hpasses hdead] at hopen
  cases hopen
  have hslot : (s.takeDescriptor pid open_call.tryn).1 =
      ((s.processes pid).table.descs.alloc 1 open_call.tryn).1.map
        (s.processes pid).table.descs.slotOf := rfl
  have htaken : (s.takeDescriptor pid open_call.tryn).2 = s.setProcess pid
      { s.processes pid with
        table := { (s.processes pid).table with
          descs := ((s.processes pid).table.descs.alloc 1 open_call.tryn).2 } } := rfl
  dsimp only
  rw [writeDescriptor_table, writeDescriptor_table, htaken, setProcess_self, hslot]
  rcases alloc_one_cases (hregular.type pid) (hregular.stride pid) open_call.tryn with
    ⟨i, hfound, hi, hfree, halloc⟩ | ⟨hfull, hnone, halloc⟩
  · rw [hfound, halloc]
    refine ⟨rfl, rfl, Or.inl ⟨⟨i, hi, hfree⟩, rfl, fun e he => ?_⟩⟩
    have hne : pid = pid → some i ≠ some e.toNat := by
      rintro - heq
      exact he (Option.some.inj heq ▸ hfree)
    unfold Kernel.descriptorOf
    rw [writeDescriptor_entries hne, writeDescriptor_entries hne, setProcess_self]
    rfl
  · rw [hnone, halloc]
    refine ⟨rfl, rfl, Or.inr ⟨fun ⟨i, hi, hfree⟩ => hfull i hi hfree, rfl, fun e => ?_⟩⟩
    unfold Kernel.descriptorOf
    rw [writeDescriptor_entries (by simp), writeDescriptor_entries (by simp), setProcess_self]
    cases (s.processes pid).entries e.toNat with
    | none => exact Or.inr rfl
    | some x => exact Or.inl rfl

/-- The guard of `SYSOPEN`. -/
theorem passes_iff
    (t : DescriptorTable) (d : Half) :
    t.refuses d .SYSOPEN = false ↔ d < t.descs.count ∧ t.descs.ckarray d.toNat ≠ 0 := by
  simp [DescriptorTable.refuses, DescriptorTable.countRefuses]

/-- **Without a root, a call that finds no file leaves none to be found.** -/
theorem canObtain_of_step
    (hregular : Regular s)
    (hroot : s.vfs.pool.ckarray 0 = 0)
    (hpasses : (s.processes pid).table.refuses open_call.dir_descriptor .SYSOPEN = false)
    (hdead :
      s.vfs.pool.ckarray (s.descriptorOf pid open_call.dir_descriptor).findex.toNat = 0)
    (hstep : OpenStep k pid s open_call s')
    (h : CanObtain pid s') :
    CanObtain pid s := by
  obtain ⟨hmarks, hlength, hcases⟩ := openStep_dead hregular hpasses hdead hstep
  have hvfs : s'.vfs = s.vfs := by
    obtain ⟨fuel, r, hopen, rfl⟩ := hstep
    exact (sysopen_frame hregular hopen).2.1
  obtain ⟨e, hmark, hlive, hreach⟩ := h
  rw [hmarks] at hmark
  rw [hvfs] at hlive
  rcases hcases with ⟨hfree, hcount, hsame⟩ | ⟨hfull, hcount, hsame⟩
  · rw [hsame e hmark] at hlive
    refine ⟨e, hmark, hlive, Or.inr ⟨?_, ⟨_, hpasses⟩, hfree⟩⟩
    rcases hreach with hbelow | ⟨hlast, -⟩
    · have hlt : e.toNat < (s'.processes pid).table.descs.count.toNat := hbelow
      exact Nat.lt_of_le_of_lt hlt (BitVec.isLt _)
    · exact hlast
  · rcases hsame e with hsame | hnull
    · rw [hsame] at hlive
      refine ⟨e, hmark, hlive, Or.inl ?_⟩
      rw [hcount] at hreach
      rcases hreach with hbelow | ⟨-, -, hfree⟩
      · exact hbelow
      · obtain ⟨i, hi, hfree⟩ := hfree
        rw [hlength] at hi
        rw [hmarks] at hfree
        exact absurd ⟨i, hi, hfree⟩ hfull
    · rw [hnull] at hlive
      exact absurd hroot hlive

/-- A descriptor of a live file that the guard lets through. -/
theorem exists_obtains_of_passes
    {e : Half}
    (hpasses : (s.processes pid).table.refuses e .SYSOPEN = false)
    (hlive : s.vfs.pool.ckarray (s.descriptorOf pid e).findex.toNat ≠ 0) :
    ¬ AlwaysFrom (OpenStep k pid) (fun s => ∀ open_call f, ¬ Obtains k pid s open_call f) s := by
  have hstring : StringAt (fun _ => 0) 0 [] := rfl
  obtain ⟨code, r', hopen, -⟩ := openFile_ends ⟨0, 0⟩ hstring (Nat.le_refl _) hlive
  intro halways
  exact halways.here ⟨fun _ => 0, e, 0, ⟨0, 0⟩, 0, 0⟩ code ⟨hpasses, _, Or.inl ⟨r', hopen⟩⟩

/-- A call through a descriptor of no live file counts up while a slot is free, and leaves
the marked descriptors as they are. -/
theorem exists_counting_step
    {d e : Half}
    (hregular : Regular s)
    (hpasses : (s.processes pid).table.refuses d .SYSOPEN = false)
    (hdead : s.vfs.pool.ckarray (s.descriptorOf pid d).findex.toNat = 0)
    (hfree : HasFree (s.processes pid).table.descs)
    (hmark : (s.processes pid).table.descs.ckarray e.toNat ≠ 0) :
    ∃ open_call s', OpenStep k pid s open_call s' ∧ Regular s' ∧ s'.vfs = s.vfs ∧
      (s'.processes pid).table.descs.ckarray = (s.processes pid).table.descs.ckarray ∧
      HasFree (s'.processes pid).table.descs ∧
      (s'.processes pid).table.descs.count = (s.processes pid).table.descs.count + 1 ∧
      s'.descriptorOf pid e = s.descriptorOf pid e := by
  have hopen := sysopen_dead (k := k) ⟨fun _ => 0, d, 0, ⟨0, 0⟩, 0, 0⟩ 0 hregular hpasses hdead
  have hstep : OpenStep k pid s ⟨fun _ => 0, d, 0, ⟨0, 0⟩, 0, 0⟩ _ := ⟨0, _, hopen, rfl⟩
  obtain ⟨hmarks, hlength, hcases⟩ := openStep_dead hregular hpasses hdead hstep
  obtain ⟨-, hcount, hsame⟩ := hcases.resolve_right fun hfull => hfull.1 hfree
  refine ⟨_, _, hstep, hregular.sysopen hopen, (sysopen_frame hregular hopen).2.1, hmarks, ?_,
    hcount, hsame e hmark⟩
  obtain ⟨i, hi, hmark⟩ := hfree
  exact ⟨i, by rw [hlength]; exact hi, by rw [hmarks]; exact hmark⟩

/-- A call that obtains a file goes through a descriptor of a live one. -/
theorem Obtains.live
    {f : Nat}
    (hregular : Regular s)
    (h : Obtains k pid s open_call f) :
    s.vfs.pool.ckarray (s.descriptorOf pid open_call.dir_descriptor).findex.toNat ≠ 0 := by
  obtain ⟨hpasses, fuel, ⟨reached, hopen⟩ | ⟨r, hopen, hcreated⟩⟩ := h
  · intro hdead
    rw [openFile_dead hdead] at hopen
    cases hopen
  · rw [(sysopen_frame hregular hopen).1] at hcreated
    cases hcreated

theorem Obtains.canObtain
    {f : Nat}
    (hregular : Regular s)
    (h : Obtains k pid s open_call f) :
    CanObtain pid s := by
  obtain ⟨hbelow, hmark⟩ := (passes_iff _ _).mp h.1
  exact ⟨_, hmark, h.live hregular, Or.inl hbelow⟩

/-- **A process that can obtain a file does so in some run.** -/
theorem exists_obtains
    (hregular : Regular s)
    (h : CanObtain pid s) :
    ¬ AlwaysFrom (OpenStep k pid) (fun s => ∀ open_call f, ¬ Obtains k pid s open_call f) s := by
  obtain ⟨e, hmark, hlive, hreach⟩ := h
  -- the induction is on how far the count has to rise
  obtain ⟨n, hn⟩ : ∃ n, e.toNat < (s.processes pid).table.descs.count.toNat + n :=
    ⟨e.toNat + 1, by omega⟩
  induction n generalizing s with
  | zero => exact exists_obtains_of_passes ((passes_iff _ e).mpr ⟨hn, hmark⟩) hlive
  | succ n ih =>
      by_cases hbelow : e < (s.processes pid).table.descs.count
      · exact exists_obtains_of_passes ((passes_iff _ e).mpr ⟨hbelow, hmark⟩) hlive
      obtain ⟨hlast, ⟨d, hpasses⟩, hfree⟩ := hreach.resolve_left hbelow
      by_cases hdead : s.vfs.pool.ckarray (s.descriptorOf pid d).findex.toNat ≠ 0
      · exact exists_obtains_of_passes hpasses hdead
      obtain ⟨open_call, s', hstep, hregular', hvfs, hmarks, hfree', hcount, hsame⟩ :=
        exists_counting_step hregular hpasses (not_not.mp hdead) hfree hmark
      have hcount' : (s.processes pid).table.descs.count.toNat ≤ e.toNat := not_lt.mp hbelow
      have hnext := congrArg BitVec.toNat hcount
      rw [BitVec.toNat_add, show (1 : Half).toNat = 1 from rfl, Nat.mod_eq_of_lt (by omega)]
        at hnext
      obtain ⟨hdbelow, hdmark⟩ := (passes_iff _ _).mp hpasses
      have hdbelow' : d.toNat < (s.processes pid).table.descs.count.toNat := hdbelow
      have hdpasses : (s'.processes pid).table.refuses d .SYSOPEN = false := by
        refine (passes_iff _ _).mpr ⟨?_, by rw [hmarks]; exact hdmark⟩
        exact show d.toNat < _ by omega
      intro halways
      exact ih hregular' (by rw [hmarks]; exact hmark) (by rw [hsame, hvfs]; exact hlive)
        (Or.inr ⟨hlast, ⟨d, hdpasses⟩, hfree'⟩) (by omega) (halways.next hstep)

/-- A kernel without a root whose process can obtain no file. -/
structure Barred (pid : Nat) (s : Kernel) : Prop where
  regular : Regular s
  root : s.vfs.pool.ckarray 0 = 0
  barred : ¬ CanObtain pid s

/-- No call changes that. -/
theorem Barred.step
    (h : Barred pid s)
    (hstep : OpenStep k pid s open_call s') :
    Barred pid s' := by
  obtain ⟨fuel, r, hopen, rfl⟩ := hstep
  refine ⟨h.regular.sysopen hopen, ?_, ?_⟩
  · rw [(sysopen_frame h.regular hopen).2.1]
    exact h.root
  · cases hguard : (s.processes pid).table.refuses open_call.dir_descriptor .SYSOPEN with
    | true =>
        rw [sysopen_refused hguard] at hopen
        cases hopen
        exact h.barred
    | false =>
        obtain ⟨hbelow, hmark⟩ := (passes_iff _ _).mp hguard
        have hdead :
            s.vfs.pool.ckarray (s.descriptorOf pid open_call.dir_descriptor).findex.toNat = 0 := by
          by_contra hlive
          exact h.barred ⟨_, hmark, hlive, Or.inl hbelow⟩
        exact fun hobtain =>
          h.barred (canObtain_of_step h.regular h.root hguard hdead ⟨fuel, r, hopen, rfl⟩ hobtain)

/-- Without a root, no file is obtained in any run exactly when none can be. -/
theorem never_obtains_iff
    (hregular : Regular s)
    (hroot : s.vfs.pool.ckarray 0 = 0) :
    AlwaysFrom (OpenStep k pid) (fun s => ∀ open_call f, ¬ Obtains k pid s open_call f) s ↔
      ¬ CanObtain pid s := by
  constructor
  · exact fun halways hobtain => exists_obtains hregular hobtain halways
  · intro hbarred run hrun
    have halways : Always (Barred pid) s run :=
      always_of_preserved (fun s a s' h hstep => h.step hstep) hrun ⟨hregular, hroot, hbarred⟩
    exact halways.mono fun t ht open_call f hobtains =>
      ht.barred (hobtains.canObtain ht.regular)

end Opens

section Result

variable {k : Constants} {s : Kernel} {pid : Nat} {call : ChrootCall}

/-- What is asked of a call, by what it reports. -/
theorem chrootRight_iff
    {code : Nat}
    (hregular : Regular s)
    (hcode : code = 0 → s.vfs.pool.ckarray 0 = 0) :
    ChrootRight k s pid call (code, s) ↔
      (code = 0 → ¬ CanObtain pid s) ∧
        (code ≠ 0 → ∀ text dir, ¬ NamesDirectory s.vfs call text dir) := by
  constructor
  · rintro ⟨hconfines, -, haccepts⟩
    refine ⟨fun hsuccess => ?_, fun herror text dir hnames => herror (haccepts ⟨text, dir, hnames⟩)⟩
    rw [← never_obtains_iff (k := k) hregular (hcode hsuccess)]
    intro run hrun
    refine (hconfines hsuccess run hrun).mono fun t ht open_call f hobtains => ?_
    obtain ⟨text, dir, hnames, -⟩ := ht open_call f hobtains
    exact hnames.root (hcode hsuccess)
  · rintro ⟨hbarred, hnone⟩
    refine ⟨fun hsuccess run hrun => ?_, fun _ => rfl, ?_⟩
    · have hnever := (never_obtains_iff (k := k) hregular (hcode hsuccess)).mpr (hbarred hsuccess)
      exact (hnever run hrun).mono fun t ht open_call f hobtains =>
        absurd hobtains (ht open_call f)
    · rintro ⟨text, dir, hnames⟩
      by_contra herror
      exact hnone herror text dir hnames

/-- What the call promises, by what it reports. -/
theorem chrootConfines_iff_right
    (hplaced : s.vfs.Placed) :
    ChrootConfines k s pid call ↔ ChrootRight k s pid call (chrootCode s.vfs call, s) := by
  obtain ⟨enough, hends⟩ := sysChroot_eq call hplaced
  exact ends_iff hends

/--
**`SYS_CHROOT` keeps its promise exactly when the root is there and the path names no
directory, or the root is not there and the process can obtain no file.**
-/
theorem chroot_confines_iff
    (hregular : Regular s)
    (hplaced : s.vfs.Placed) :
    ChrootConfines k s pid call ↔ ChrootSafe s pid call := by
  have hzero := chrootCode_eq_zero_iff s.vfs call
  rw [chrootConfines_iff_right hplaced, chrootRight_iff hregular fun h => (hzero.mp h).1]
  constructor
  · rintro ⟨hbarred, hnone⟩
    refine ⟨fun hroot => hnone fun hcode => hroot (hzero.mp hcode).1, ?_⟩
    exact fun hroot hmapped hlength => hbarred (hzero.mpr ⟨hroot, hmapped, hlength⟩)
  · rintro ⟨hroot, hrootless⟩
    refine ⟨fun hcode => ?_, fun _ text dir hnames => hroot hnames.root text dir hnames⟩
    obtain ⟨hdead, hmapped, hlength⟩ := hzero.mp hcode
    exact hrootless hdead hmapped hlength

end Result

/-- The absolute path `/b`, which names nothing below the root of `nestedFiles`. -/
def chrootMissing : ChrootCall :=
  ⟨4096, fun i => [slash, 98].getD i 0, ⟨0, 0⟩⟩

theorem nestedKernel_regular : Regular nestedKernel :=
  ⟨fun _ => rfl, fun _ => rfl, ⟨by decide, by decide⟩⟩

theorem nestedKernel_placed : nestedKernel.vfs.Placed :=
  ⟨by decide, by decide⟩

/-- A call that is refused, and rightly. -/
theorem chroot_confines_iff_missing :
    ChrootConfines ⟨0, 0, 0⟩ nestedKernel 0 chrootMissing ↔
      ChrootSafe nestedKernel 0 chrootMissing :=
  chroot_confines_iff nestedKernel_regular nestedKernel_placed

/-- The absolute path `/a`, which names the directory 1. -/
def chrootA : ChrootCall :=
  ⟨4096, fun i => [slash, 97].getD i 0, ⟨0, 0⟩⟩

/-- `/a` names a directory, and the call reports an error. -/
theorem nested_chroot_refused :
    NamesDirectory nestedFiles chrootA [slash, 97] 1 ∧
      ¬ ChrootConfines ⟨0, 0, 0⟩ nestedKernel 0 chrootA := by
  have hnames : NamesDirectory nestedFiles chrootA [slash, 97] 1 :=
    { mapped := by decide
      string := ⟨rfl, by decide, rfl, by decide, rfl⟩
      short := by decide
      root := by decide
      resolves := by decide
      directory := rfl }
  refine ⟨hnames, fun hconfines => ?_⟩
  have hcode : chrootCode nestedFiles chrootA = 0 :=
    ((chrootConfines_iff_right nestedKernel_placed).mp hconfines).accepts ⟨_, 1, hnames⟩
  exact hnames.root ((chrootCode_eq_zero_iff _ _).mp hcode).1

end Filesystem
end BestKernel
