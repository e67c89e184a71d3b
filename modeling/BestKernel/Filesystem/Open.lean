import BestKernel.Filesystem.Paths
import BestKernel.Syscalls.Descriptors

/-!
# Opening a file

`SYSOPEN` takes a descriptor first and looks for the file afterwards.  What `open`
returns is a pointer to a file, and it is kept as the index of the file and compared
with an error code.  So the error is never seen: nothing is created, nothing is
reported, and nothing of what was done is taken back.

`open_exact_iff` says what is left of the promise: a call does what it should when
the guard on the directory descriptor refuses it, and was right to do so.

Readings of the source.  The new descriptor is the one in the slot that `alloc`
found; where it found none, `newdesc` is null and what lies at address 0 is written.
`meta.disk` and `diskpos` are the partition of a file and its position there.
`ROOT` and `O_DIRECTORY` are not declared, and `O_CREAT` is an enumerator of value 0:
they stand for any values.  The path is the string behind the translated pointer.  What
`BLOOD_LIBEL` does is not part of the state.
-/

namespace BestKernel
namespace Filesystem

open Machine
open Kontrol
open Syscalls (DescriptorTable)

/-- `class Descriptor`, without its mappings. -/
structure Descriptor where
  findex : Word
  flags : Half
  file_offset : Word

/-- A process.  A slot of its descriptors is `none` where the pointer in it is null. -/
structure Process where
  owner_id : Half
  table : DescriptorTable
  entries : Nat → Option Descriptor

/-- Constants whose values the sources leave open. -/
structure Constants where
  ROOT : Half
  O_CREAT : Half
  O_DIRECTORY : Half

/-- The files, the processes, and what lies at address 0 and is read and written
through null pointers to descriptors. -/
structure Kernel where
  vfs : Vfs
  processes : Nat → Process
  null : Descriptor

/-- The arguments of a call, the out parameters of `recurse_directories` before it,
and the answers of the pool of pointers. -/
structure OpenCall where
  path : Nat → Byte
  dir_descriptor : Half
  flags : Half
  reached : Reached
  tryn : Word
  vfs_tryn : Word

namespace Vfs

/-- `&vfs->descriptions[p]`, or the null pointer. -/
def fileAddress (vfs : Vfs) : Option Nat → Word
  | none => 0
  | some p => vfs.pool.pool + vfs.pool.stride * BitVec.ofNat 64 p

/-- `string_copy` of the rest of a path. -/
def copyName (path : Nat → Byte) (start i : Nat) : Byte :=
  if (List.range i).any fun k => path (start + k) = 0 then 0 else path (start + i)

/-- A file that is all zeros, with the slot that null pointers stand for. -/
def zeroFile (null : Nat) : File where
  data := ⟨fun _ => 0, 0, 0, 0, 0, 0⟩
  parent := null
  double_link := 0
  children := ⟨.POINTER, 0, 0, fun _ => 0, 0, 8⟩
  entries := fun _ => null
  listeners := 0

/-- The creation of a file in `SYSOPEN`: its slot, `none` where there is none. -/
def create (vfs : Vfs) (dir : Nat) (root directory : Bool) (name : Nat → Byte)
    (tryn : Word) : Option Nat × Vfs :=
  match vfs.pool.alloc 1 tryn with
  | (none, pool) => (none, { vfs with pool := pool })
  | (some found, pool) =>
      let file := vfs.pool.slotOf found
      (some file,
        { vfs with
          pool := pool
          descriptions := Function.update vfs.descriptions file
            { zeroFile vfs.null with
              data :=
                { name := name
                  type := if directory then Syscalls.DIRECTORY else STORAGE
                  mode := if root then 3 else 0
                  partition := (vfs.descriptions dir).data.partition
                  relpos := 0
                  length := 0 } } })

end Vfs

/-- What a call stores in `sys_retval`, if anything, the slot of the file that it
creates, and the kernel behind it. -/
structure OpenResult where
  sys_retval : Option Int
  created : Option Nat
  kernel : Kernel

namespace Kernel

/-- `process->descs->pool[desc]`, null or not. -/
def descriptorOf (s : Kernel) (pid : Nat) (desc : Half) : Descriptor :=
  ((s.processes pid).entries desc.toNat).getD s.null

def setProcess (s : Kernel) (pid : Nat) (p : Process) : Kernel :=
  { s with processes := Function.update s.processes pid p }

/-- Write through a pointer to a descriptor, that of a slot or a null one. -/
def writeDescriptor (s : Kernel) (pid : Nat) (slot : Option Nat)
    (write : Descriptor → Descriptor) : Kernel :=
  match slot with
  | none => { s with null := write s.null }
  | some i =>
      let p := s.processes pid
      s.setProcess pid
        { p with entries := Function.update p.entries i (some (write ((p.entries i).getD s.null))) }

/-- `process->descs->pool_alloc(1)`: the slot of the new descriptor. -/
def takeDescriptor (s : Kernel) (pid : Nat) (tryn : Word) : Option Nat × Kernel :=
  let p := s.processes pid
  let (found, descs) := p.table.descs.alloc 1 tryn
  (found.map p.table.descs.slotOf,
    s.setProcess pid { p with table := { p.table with descs := descs } })

variable (k : Constants)

/-- What `SYSOPEN` does with the file that `open` returned. -/
def finishOpen (s : Kernel) (pid : Nat) (call : OpenCall) (slot file : Option Nat)
    (reached : Reached) : OpenResult :=
  let address := s.vfs.fileAddress file
  let s := s.writeDescriptor pid slot fun newdesc => { newdesc with findex := address }
  let setFlags (s : Kernel) : Kernel :=
    s.writeDescriptor pid slot fun newdesc => { newdesc with flags := call.flags }
  if address.setWidth 32 = BitVec.ofNat 32 NO_MATCHING_FILENAME then
    if call.flags &&& k.O_CREAT ≠ 0 then
      match s.vfs.create (s.descriptorOf pid call.dir_descriptor).findex.toNat
          ((s.processes pid).owner_id = k.ROOT) (call.flags &&& k.O_DIRECTORY ≠ 0)
          (Vfs.copyName call.path reached.out) call.vfs_tryn with
      | (none, vfs) => ⟨some (-2), none, { s with vfs := vfs }⟩
      | (some created, vfs) => ⟨some 0, some created, setFlags { s with vfs := vfs }⟩
    else ⟨some 1, none, setFlags s⟩
  else ⟨none, none, setFlags s⟩

/-- `SYSOPEN`, `none` while `open` has not ended. -/
def sysopen (s : Kernel) (pid : Nat) (call : OpenCall) (fuel : Nat) : Option OpenResult :=
  if (s.processes pid).table.refuses call.dir_descriptor .SYSOPEN then
    some ⟨some (-1), none, s⟩
  else
    let dir := (s.descriptorOf pid call.dir_descriptor).findex.toNat
    let (slot, s) := s.takeDescriptor pid call.tryn
    (s.vfs.openFile call.path fuel dir call.reached).map fun (file, reached) =>
      s.finishOpen k pid call slot file reached

end Kernel

section Promise

variable (k : Constants) (s : Kernel) (pid : Nat) (call : OpenCall)

/-- The directory that the path starts from, where there is one. -/
def StartsAt (dir : Nat) : Prop :=
  (s.processes pid).table.Live call.dir_descriptor ∧
    (s.descriptorOf pid call.dir_descriptor).findex.toNat = dir ∧
    s.vfs.pool.ckarray dir ≠ 0

/-- The path leads to the file `f`. -/
def PathNames (f : Nat) : Prop :=
  ∃ dir text, StartsAt s pid call dir ∧ StringAt call.path 0 text ∧
    s.vfs.resolve dir (text.splitOn slash) = .found f

/-- The path leads to no file, and one can be created. -/
def Creatable : Prop :=
  (∀ f, ¬ PathNames s pid call f) ∧
    (∃ dir text, StartsAt s pid call dir ∧ StringAt call.path 0 text) ∧
    call.flags &&& k.O_CREAT ≠ 0 ∧
    ∃ i, i < s.vfs.pool.length.toNat ∧ s.vfs.pool.ckarray i = 0

/-- One descriptor has become live, and it refers to the file `f`. -/
def NewDescriptor (p p' : Process) (f : Nat) : Prop :=
  ∃ d, ¬ p.table.Live d ∧ p'.table.Live d ∧
    (∀ e, e ≠ d → (p'.table.Live e ↔ p.table.Live e)) ∧
    ∃ x, p'.entries d.toNat = some x ∧ x.findex.toNat = f

/-- One file has become live, and the path leads to it. -/
def NewFile (s' : Kernel) (f : Nat) : Prop :=
  s.vfs.pool.ckarray f = 0 ∧ s'.vfs.pool.ckarray f ≠ 0 ∧
    (∀ i, i ≠ f → s'.vfs.pool.ckarray i = s.vfs.pool.ckarray i) ∧
    PathNames s' pid call f

/-- The promise: a file that exists is opened, one that can be created is created and
opened, and otherwise an error is reported and nothing has changed. -/
def OpenExact : Prop :=
  ∃ enough r, (∀ fuel, enough ≤ fuel → s.sysopen k pid call fuel = some r) ∧
    (∀ f, PathNames s pid call f →
      r.sys_retval = some 0 ∧ r.kernel.vfs = s.vfs ∧
        NewDescriptor (s.processes pid) (r.kernel.processes pid) f) ∧
    (Creatable k s pid call →
      r.sys_retval = some 0 ∧ ∃ f, NewFile s pid call r.kernel f ∧
        NewDescriptor (s.processes pid) (r.kernel.processes pid) f) ∧
    ((∀ f, ¬ PathNames s pid call f) → ¬ Creatable k s pid call →
      (∃ error, error ≠ 0 ∧ r.sys_retval = some error) ∧ r.kernel = s)

/-- The pool of files starts at a page, and a file consists of words. -/
structure Vfs.Aligned (vfs : Vfs) : Prop where
  pool : 8 ∣ vfs.pool.pool.toNat
  stride : 8 ∣ vfs.pool.stride.toNat

end Promise

section Aligned

variable {vfs : Vfs}

theorem eight_dvd_mod {n w : Nat} (h : 8 ∣ n) (hw : 3 ≤ w) : 8 ∣ n % 2 ^ w := by
  have hpow : 8 ∣ 2 ^ w := (Nat.pow_dvd_pow 2 hw : 2 ^ 3 ∣ 2 ^ w)
  exact (Nat.dvd_mod_iff hpow).mpr h

/-- The address of a file is not an error code. -/
theorem fileAddress_ne_noMatching
    (h : vfs.Aligned)
    (file : Option Nat) :
    (vfs.fileAddress file).setWidth 32 ≠ BitVec.ofNat 32 NO_MATCHING_FILENAME := by
  have hdvd : 8 ∣ (vfs.fileAddress file).toNat := by
    cases file with
    | none => exact ⟨0, rfl⟩
    | some p =>
        rw [Vfs.fileAddress, BitVec.toNat_add, BitVec.toNat_mul]
        have hoffset : 8 ∣ vfs.pool.stride.toNat * (BitVec.ofNat 64 p).toNat % 2 ^ 64 :=
          eight_dvd_mod (Nat.dvd_mul_right_of_dvd h.stride _) (by decide)
        exact eight_dvd_mod (Nat.dvd_add h.pool hoffset) (by decide)
  intro heq
  have hmod := congrArg BitVec.toNat heq
  rw [BitVec.toNat_setWidth] at hmod
  have hdvd' : 8 ∣ (vfs.fileAddress file).toNat % 2 ^ 32 := eight_dvd_mod hdvd (by decide)
  rw [hmod] at hdvd'
  exact absurd hdvd' (by decide)

end Aligned

section Calls

variable {k : Constants} {s : Kernel} {pid : Nat} {call : OpenCall}

/-- No pointer to a file is an error code, so the end of `SYSOPEN` only fills in the
descriptor. -/
theorem finishOpen_eq
    (haligned : s.vfs.Aligned)
    (slot file : Option Nat) (reached : Reached) :
    s.finishOpen k pid call slot file reached =
      ⟨none, none,
        (s.writeDescriptor pid slot fun newdesc =>
            { newdesc with findex := s.vfs.fileAddress file }).writeDescriptor pid slot
          fun newdesc => { newdesc with flags := call.flags }⟩ := by
  unfold Kernel.finishOpen
  rw [if_neg (fileAddress_ne_noMatching haligned file)]

/-- What a call does that passes the guard. -/
theorem sysopen_passes
    {fuel : Nat} {r : OpenResult}
    (haligned : s.vfs.Aligned)
    (hpasses : (s.processes pid).table.refuses call.dir_descriptor .SYSOPEN = false)
    (h : s.sysopen k pid call fuel = some r) :
    ∃ address, r =
      let (slot, s) := s.takeDescriptor pid call.tryn
      ⟨none, none,
        (s.writeDescriptor pid slot fun newdesc =>
            { newdesc with findex := address }).writeDescriptor pid slot
          fun newdesc => { newdesc with flags := call.flags }⟩ := by
  rw [Kernel.sysopen, hpasses, if_neg Bool.false_ne_true] at h
  obtain ⟨⟨file, reached⟩, _, heq⟩ := Option.map_eq_some_iff.mp h
  have haligned' : (s.takeDescriptor pid call.tryn).2.vfs.Aligned := haligned
  have hfinish : (s.takeDescriptor pid call.tryn).2.finishOpen k pid call
      (s.takeDescriptor pid call.tryn).1 file reached = _ :=
    finishOpen_eq haligned' _ file reached
  exact ⟨_, heq.symm.trans hfinish⟩

theorem sysopen_refused
    (hrefused : (s.processes pid).table.refuses call.dir_descriptor .SYSOPEN = true)
    (fuel : Nat) :
    s.sysopen k pid call fuel = some ⟨some (-1), none, s⟩ := by
  rw [Kernel.sysopen, if_pos hrefused]

/--
**`SYSOPEN` keeps its promise exactly when its guard refuses the directory, and there
is no file to open and none to create.**
-/
theorem open_exact_iff
    (haligned : s.vfs.Aligned) :
    OpenExact k s pid call ↔
      (s.processes pid).table.refuses call.dir_descriptor .SYSOPEN = true ∧
        (∀ f, ¬ PathNames s pid call f) ∧ ¬ Creatable k s pid call := by
  constructor
  · rintro ⟨enough, r, hresult, hopen, hcreate, herror⟩
    have hret := hresult enough (Nat.le_refl _)
    cases hguard : (s.processes pid).table.refuses call.dir_descriptor .SYSOPEN with
    | true =>
        rw [sysopen_refused hguard] at hret
        cases hret
        refine ⟨rfl, fun f hf => ?_, fun hnew => ?_⟩
        · exact absurd (hopen f hf).1 (by simp)
        · exact absurd (hcreate hnew).1 (by simp)
    | false =>
        -- nothing is stored in `sys_retval`, and each part of the promise asks for it
        obtain ⟨address, rfl⟩ := sysopen_passes haligned hguard hret
        by_cases hnames : ∃ f, PathNames s pid call f
        · obtain ⟨f, hf⟩ := hnames
          cases (hopen f hf).1
        · by_cases hnew : Creatable k s pid call
          · cases (hcreate hnew).1
          · obtain ⟨⟨error, _, heq⟩, _⟩ := herror (not_exists.mp hnames) hnew
            cases heq
  · rintro ⟨hguard, hnames, hnew⟩
    refine ⟨0, ⟨some (-1), none, s⟩, fun fuel _ => sysopen_refused hguard fuel,
      fun f hf => absurd hf (hnames f), fun h => absurd h hnew,
      fun _ _ => ⟨⟨-1, by decide, rfl⟩, rfl⟩⟩

end Calls

/-- A process that is not root, whose descriptors 0 and 1 are live and refer to the
directory 0; the third slot is free. -/
def nestedProcess : Process where
  owner_id := 1
  table := ⟨⟨.POINTER, 3, 2, fun i => if i < 2 then 255 else 0, 8192, 8⟩, fun _ => 0⟩
  entries := fun i => if i < 2 then some ⟨0, 0, 0⟩ else none

/-- The process above and the files of `nestedFiles`. -/
def nestedKernel : Kernel where
  vfs := nestedFiles
  processes := fun _ => nestedProcess
  null := ⟨0, 0, 0⟩

/-- The path `a` in the directory of a descriptor. -/
def openA (dir_descriptor : Half) : OpenCall :=
  ⟨fun i => if i = 0 then 97 else 0, dir_descriptor, 0, ⟨0, 0⟩, 0, 0⟩

/-- A call with a descriptor that is not live. -/
theorem open_exact_iff_closed :
    OpenExact ⟨0, 0, 0⟩ nestedKernel 0 (openA 2) ↔
      (nestedKernel.processes 0).table.refuses 2 .SYSOPEN = true ∧
        (∀ f, ¬ PathNames nestedKernel 0 (openA 2) f) ∧
        ¬ Creatable ⟨0, 0, 0⟩ nestedKernel 0 (openA 2) :=
  open_exact_iff ⟨by decide, by decide⟩

/-- `a` names the file 1, and a call that opens it makes no descriptor live. -/
theorem nested_open_not_exact :
    PathNames nestedKernel 0 (openA 0) 1 ∧ ¬ OpenExact ⟨0, 0, 0⟩ nestedKernel 0 (openA 0) := by
  have hnames : PathNames nestedKernel 0 (openA 0) 1 := by
    refine ⟨0, [97], ⟨⟨by decide, by decide⟩, by decide, by decide⟩, ⟨rfl, by decide, rfl⟩, ?_⟩
    decide
  refine ⟨hnames, ?_⟩
  rintro ⟨enough, r, hresult, hopen, _⟩
  have haligned : nestedKernel.vfs.Aligned := ⟨by decide, by decide⟩
  obtain ⟨address, rfl⟩ :=
    sysopen_passes haligned (by decide) (hresult enough (Nat.le_refl _))
  cases (hopen 1 hnames).1

end Filesystem
end BestKernel
