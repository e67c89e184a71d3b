import BestKernel.Filesystem.Permissions

/-!
# Mounting

The files that `finalize_kernel_data` makes, and the calls that add files to them and
take files away: `mount`, `SYSOPEN` with `O_CREAT`, `SYS_RMFILE`, `SYS_RMDIR` and
`SYS_CHMETA`.

The files are no tree from the start.  The directories `dev` and `mods` have the root
for their parent, and the list of its children is empty (`tree_never_kept`); nothing
but a removal of both repairs it while no partition is mounted
(`tree_iff_of_unmounted`).  A mount would not build a tree either: `alloc` marks no
slot, so that every file of the partition is loaded into the same one
(`recursiveInsert_entries`).

Readings of the source.  A file is live from its construction, its loading or its
creation on until it is freed; the marks of the pool do not tell, as nothing sets
them.  The memory of the kernel data is zero, and the two names are the bytes of the
numbers as they lie in memory.  The driver of the disk is a parameter: what it loads
for a partition and for an entry of a directory, and the entries that it finds.  The
`root` in `mount`, which is not initialised, stands for any slot; `parent` in
`recursive_insert` is the directory, whose partition is that in its metadata; and the
call of `recursive_insert` by itself is for the file that was just loaded.  The check
of the owner in `SYSMOUNT` is not part of `mount`.
-/

namespace BestKernel
namespace Filesystem

open Machine
open Kontrol
open Runs
open Syscalls (DIRECTORY WRITE)

/-- What the driver of the disk answers. -/
structure DiskDriver where
  files_number : Half → Word
  load_partition : Half → File
  load_file : Nat → File
  getdir_entries : File → Nat → Nat

/-- The kernel, the pool of pointers, and which files are live. -/
structure FileSystem where
  kernel : Kernel
  kptr : Hash
  live : Nat → Bool

namespace FileSystem

/-- A write to a file. -/
def modify (s : FileSystem) (f : Nat) (write : File → File) : FileSystem :=
  { s with
    kernel := { s.kernel with
      vfs := { s.kernel.vfs with
        descriptions := Function.update s.kernel.vfs.descriptions f
          (write (s.kernel.vfs.descriptions f)) } } }

/-- The file in a slot. -/
def file (s : FileSystem) (f : Nat) : File :=
  s.kernel.vfs.descriptions f

/-- `this->alloc(1)`: the slot, that of the null pointer where there is none. -/
def takeFile (s : FileSystem) : Nat × FileSystem :=
  let (found, pool) := s.kernel.vfs.pool.alloc 1 0
  (found.elim s.kernel.vfs.null s.kernel.vfs.pool.slotOf,
    { s with kernel := { s.kernel with vfs := { s.kernel.vfs with pool := pool } } })

/-- `load_file` copies a whole file. -/
def loadFile (s : FileSystem) (f : Nat) (loaded : File) : FileSystem :=
  { s.modify f fun _ => loaded with live := Function.update s.live f true }

section Mount

variable (driver : DiskDriver)

/-- The pool of children and the entries in it. -/
def fetchEntries (s : FileSystem) (dir : Nat) : FileSystem :=
  let (found, kptr) := s.kptr.alloc (s.file dir).children.count 0
  { s with kptr := kptr }.modify dir fun d =>
    { d with
      children := { d.children with pool := found.getD 0 }
      entries := driver.getdir_entries d }

/-- One entry of a directory becomes a file. -/
def insertEntry (s : FileSystem) (dir u : Nat) : Nat × FileSystem :=
  let (newfag, s) := s.takeFile
  let s := s.loadFile newfag (driver.load_file ((s.file dir).entries u))
  let partition := (s.file dir).data.partition
  let s := s.modify newfag fun f => { f with data := { f.data with partition := partition } }
  let s := s.modify dir fun d => { d with entries := Function.update d.entries u newfag }
  (newfag, s.modify newfag fun f => { f with parent := dir })

/-- The loop over the entries from `u` on, `none` while it has not ended. -/
def insertLoop (recurse : FileSystem → Nat → Option FileSystem) (dir : Nat) :
    Nat → FileSystem → Nat → Option FileSystem
  | 0, _, _ => none
  | fuel + 1, s, u =>
      if u < (s.file dir).children.count.toNat then
        let (newfag, s) := s.insertEntry driver dir u
        match recurse s newfag with
        | none => none
        | some s => insertLoop recurse dir fuel s (u + 1)
      else some s

/-- `recursive_insert`. -/
def recursiveInsert : Nat → FileSystem → Nat → Option FileSystem
  | 0, _, _ => none
  | fuel + 1, s, dir =>
      if (s.file dir).data.type ≠ DIRECTORY then some s
      else insertLoop driver (recursiveInsert fuel) dir fuel (s.fetchEntries driver dir) 0

/-- `mount`. -/
def mount (s : FileSystem) (part : Half) (root fuel : Nat) : Option (Int × FileSystem) :=
  let pool := s.kernel.vfs.pool
  if (pool.length - pool.count).setWidth 64 < driver.files_number part then some (1, s)
  else
    let s := s.loadFile root (driver.load_partition part)
    let s := s.modify root fun f => { f with data := { f.data with partition := part } }
    (s.recursiveInsert driver fuel root).map fun s => (0, s)

end Mount

/-- A removal frees the file of a descriptor. -/
def afterRemoval (s : FileSystem) (f : Nat) (result : Int × Kernel) : FileSystem :=
  { s with
    kernel := result.2
    live := if result.1 = 0 then Function.update s.live f false else s.live }

/-- A file is created in a slot. -/
def afterOpen (s : FileSystem) (r : OpenResult) : FileSystem :=
  { s with
    kernel := r.kernel
    live := r.created.elim s.live fun f => Function.update s.live f true }

end FileSystem

/-- The calls. -/
inductive TreeOp where
  | mount (part : Half) (root : Nat)
  | sysopen (pid : Nat) (call : OpenCall)
  | rmfile (pid : Nat) (desc : Half)
  | rmdir (pid : Nat) (desc : Half)
  | chmeta (pid : Nat) (desc : Half) (name : Nat → Byte) (type mode : Half)

def TreeStep (k : Constants) (driver : DiskDriver) (s : FileSystem) (op : TreeOp)
    (s' : FileSystem) : Prop :=
  match op with
  | .mount part root => ∃ fuel ret, s.mount driver part root fuel = some (ret, s')
  | .sysopen pid call =>
      ∃ fuel r, s.kernel.sysopen k pid call fuel = some r ∧ s' = s.afterOpen r
  | .rmfile pid desc =>
      s' = s.afterRemoval (s.kernel.fileOf pid desc) (s.kernel.rmfile k pid desc)
  | .rmdir pid desc =>
      s' = s.afterRemoval (s.kernel.fileOf pid desc) (s.kernel.rmdir pid desc)
  | .chmeta pid desc name type mode =>
      s' = { s with kernel := (s.kernel.chmeta k pid desc name type mode).kernel }

/-- What `finalize_kernel_data` is given: the pool of files, the zeros that are its
`ckarray`, the pool of pointers, and the processes that come later. -/
structure Boot where
  vfs : Hash
  kptr : Hash
  null : Nat
  sizeofFile : Nat
  processes : Nat → Process
  descriptor : Descriptor

/-- The slots of the first files. -/
abbrev ROOT_INDEX : Nat := 0
abbrev DEV_INDEX : Nat := 1
abbrev MODS_INDEX : Nat := 2

/-- The bytes of a number as they lie in memory. -/
def littleEndian (n : Nat) (i : Nat) : Byte :=
  BitVec.ofNat 8 (n / 256 ^ i)

/-- `directory_constructor`. -/
def directoryConstructor (target : File) (parent : Nat) (name : Nat → Byte) : File :=
  { target with
    data := { target.data with name := name, type := DIRECTORY }
    parent := parent
    children := { target.children with length := 0, count := 0, pool := 0 } }

/-- The files that `finalize_kernel_data` makes. -/
def finalizeKernelData (b : Boot) : FileSystem where
  kernel :=
    { vfs :=
        { pool := b.vfs
          descriptions := fun i =>
            let zero := Vfs.zeroFile b.null
            if i = ROOT_INDEX then
              { zero with data := { zero.data with name := fun j => if j = 0 then slash else 0 } }
            else if i = DEV_INDEX then
              directoryConstructor zero ROOT_INDEX (littleEndian 0x646576)
            else if i = MODS_INDEX then
              directoryConstructor zero ROOT_INDEX (littleEndian 0x6D6F6473)
            else zero
          null := b.null
          sizeofFile := b.sizeofFile }
      processes := b.processes
      null := b.descriptor }
  kptr := b.kptr
  live := fun i => i ≤ MODS_INDEX

/-- The live files are a tree below the root. -/
structure IsTree (s : FileSystem) : Prop where
  parent : ∀ f, s.live f = true → f ≠ ROOT_INDEX →
    s.live (s.file f).parent = true ∧ (s.file (s.file f).parent).data.type = DIRECTORY ∧
      (s.kernel.vfs.liveChildren (s.file f).parent).count f = 1
  child : ∀ d, s.live d = true → (s.file d).data.type = DIRECTORY →
    ∀ f, f ∈ s.kernel.vfs.liveChildren d → s.live f = true ∧ (s.file f).parent = d

/-- A step frees no directory with a live child. -/
def FreesLeaves (s : FileSystem) (_ : TreeOp) (s' : FileSystem) : Prop :=
  ∀ d, s.live d = true → s'.live d = false → (s.file d).data.type = DIRECTORY →
    ∀ f, f ≠ d → s.live f = true → (s.file f).parent ≠ d

/-- The files stay a tree over a run. -/
def TreeKept (s : FileSystem) (run : List (TreeOp × FileSystem)) : Prop :=
  Always IsTree s run ∧ EveryStep FreesLeaves s run

/-- No partition is mounted: there is no room for its files. -/
def Unmounted (driver : DiskDriver) (s : FileSystem) : TreeOp → Prop
  | .mount part _ =>
      (s.kernel.vfs.pool.length - s.kernel.vfs.pool.count).setWidth 64 < driver.files_number part
  | _ => True

/-- The pool is aligned, no file has a list of children, only the first three can be
live, and the root is the parent of the others. -/
structure Bare (s : FileSystem) : Prop where
  aligned : s.kernel.vfs.Aligned
  children : ∀ f, (s.file f).children.length = 0
  first : ∀ f, s.live f = true → f ≤ MODS_INDEX
  root : ∀ f, s.live f = true → f ≠ ROOT_INDEX → (s.file f).parent = ROOT_INDEX

section Bare

variable {s : FileSystem}

theorem dev_or_mods
    {f : Nat}
    (hle : f ≤ MODS_INDEX)
    (hne : f ≠ ROOT_INDEX) :
    f = DEV_INDEX ∨ f = MODS_INDEX := by
  change f ≤ 2 at hle
  change f ≠ 0 at hne
  change f = 1 ∨ f = 2
  omega

theorem Bare.liveChildren_eq_nil
    (h : Bare s)
    (d : Nat) :
    s.kernel.vfs.liveChildren d = [] := by
  have hlength : (s.kernel.vfs.descriptions d).children.length = 0 := h.children d
  rw [Vfs.liveChildren, Vfs.liveEntries, hlength]
  rfl

/-- Without lists the files are a tree when there is none but the root. -/
theorem Bare.isTree_iff
    (h : Bare s) :
    IsTree s ↔ s.live DEV_INDEX = false ∧ s.live MODS_INDEX = false := by
  constructor
  · intro htree
    have hdead : ∀ f, f ≠ ROOT_INDEX → s.live f = false := by
      intro f hf
      cases hlive : s.live f with
      | false => rfl
      | true =>
          have hlisted := (htree.parent f hlive hf).2.2
          rw [h.liveChildren_eq_nil] at hlisted
          cases hlisted
    exact ⟨hdead _ (by decide), hdead _ (by decide)⟩
  · rintro ⟨hdev, hmods⟩
    refine ⟨fun f hlive hf => ?_, fun d _ _ f hf => ?_⟩
    · obtain rfl | rfl := dev_or_mods (h.first f hlive) hf
      · exact absurd (hlive.symm.trans hdev) (by decide)
      · exact absurd (hlive.symm.trans hmods) (by decide)
    · rw [h.liveChildren_eq_nil] at hf
      cases hf

theorem bare_finalizeKernelData
    {b : Boot}
    (haligned : (finalizeKernelData b).kernel.vfs.Aligned) :
    Bare (finalizeKernelData b) := by
  refine ⟨haligned, fun f => ?_, fun f hf => of_decide_eq_true hf, fun f hf hne => ?_⟩
  · unfold FileSystem.file finalizeKernelData
    dsimp only
    split_ifs <;> rfl
  · obtain rfl | rfl := dev_or_mods (of_decide_eq_true hf) hne
    · rfl
    · rfl

end Bare

section Unmounted

variable {k : Constants} {driver : DiskDriver} {s s' : FileSystem}

/-- A step that changes no list of children, makes no file live, and moves none. -/
theorem Bare.of_frame
    (h : Bare s)
    (haligned : s'.kernel.vfs.Aligned)
    (hchildren : ∀ f, (s'.file f).children.length = 0)
    (hlive : ∀ f, s'.live f = true →
      s.live f = true ∧ (s'.file f).parent = (s.file f).parent) :
    Bare s' := by
  refine ⟨haligned, hchildren, fun f hf => h.first f (hlive f hf).1, fun f hf hne => ?_⟩
  rw [(hlive f hf).2]
  exact h.root f (hlive f hf).1 hne

/-- A removal clears the file and shortens no list. -/
theorem Bare.remove
    (h : Bare s)
    (f : Nat) :
    Bare (s.afterRemoval f (0, s.kernel.remove f)) := by
  have hupdate : ∀ g, ((s.kernel.vfs.unlink f).descriptions g).children.length = 0 ∧
      ((s.kernel.vfs.unlink f).descriptions g).parent = (s.file g).parent := by
    intro g
    unfold Vfs.unlink
    dsimp only
    by_cases hg : g = (s.kernel.vfs.descriptions f).parent
    · subst hg
      rw [Function.update_self]
      exact ⟨h.children _, rfl⟩
    · rw [Function.update_of_ne hg]
      exact ⟨h.children g, rfl⟩
  refine h.of_frame (aligned_remove h.aligned f) (fun g => ?_) fun g hg => ?_
  · change (Function.update (s.kernel.vfs.unlink f).descriptions f
      (Vfs.zeroFile s.kernel.vfs.null) g).children.length = 0
    by_cases hgf : g = f
    · subst hgf
      rw [Function.update_self]
      rfl
    · rw [Function.update_of_ne hgf]
      exact (hupdate g).1
  · have hlive : Function.update s.live f false g = true := hg
    have hgf : g ≠ f := by
      rintro rfl
      rw [Function.update_self] at hlive
      cases hlive
    rw [Function.update_of_ne hgf] at hlive
    refine ⟨hlive, ?_⟩
    change (Function.update (s.kernel.vfs.unlink f).descriptions f
      (Vfs.zeroFile s.kernel.vfs.null) g).parent = _
    rw [Function.update_of_ne hgf]
    exact (hupdate g).2

/-- A removal that is refused changes nothing. -/
theorem afterRemoval_refused
    {f : Nat} {ret : Int}
    (hret : ret ≠ 0) :
    s.afterRemoval f (ret, s.kernel) = s := by
  rw [FileSystem.afterRemoval, if_neg hret]

/-- `SYS_CHMETA` changes nothing but metadata. -/
theorem chmeta_file
    {s : Kernel}
    (pid : Nat) (desc : Half) (name : Nat → Byte) (type mode : Half) (f : Nat) :
    ∃ data, (s.chmeta k pid desc name type mode).kernel.vfs.descriptions f =
      { s.vfs.descriptions f with data := data } := by
  unfold Kernel.chmeta Kernel.checked
  split_ifs
  · exact ⟨_, rfl⟩
  · exact ⟨_, rfl⟩
  · by_cases hf : f = s.fileOf pid desc
    · subst hf
      exact ⟨_, Function.update_self _ _ _⟩
    · exact ⟨_, Function.update_of_ne hf _ _⟩

theorem chmeta_aligned
    {s : Kernel}
    (haligned : s.vfs.Aligned)
    (pid : Nat) (desc : Half) (name : Nat → Byte) (type mode : Half) :
    (s.chmeta k pid desc name type mode).kernel.vfs.Aligned := by
  unfold Kernel.chmeta Kernel.checked
  split_ifs <;> exact ⟨haligned.pool, haligned.stride⟩

/-- What a step does while no partition is mounted. -/
theorem Bare.step
    {op : TreeOp}
    (h : Bare s)
    (hunmounted : Unmounted driver s op)
    (hstep : TreeStep k driver s op s') :
    Bare s' := by
  cases op with
  | mount part root =>
      obtain ⟨fuel, ret, hmount⟩ := hstep
      have hrefused : (s.kernel.vfs.pool.length - s.kernel.vfs.pool.count).setWidth 64 <
          driver.files_number part := hunmounted
      rw [FileSystem.mount, if_pos hrefused] at hmount
      cases hmount
      exact h
  | sysopen pid call =>
      obtain ⟨fuel, r, hopen, rfl⟩ := hstep
      obtain ⟨hcreated, hvfs⟩ := sysopen_vfs h.aligned hopen
      unfold FileSystem.afterOpen
      rw [hcreated]
      have hfile : ∀ f, r.kernel.vfs.descriptions f = s.file f := fun f =>
        congrArg (fun v : Vfs => v.descriptions f) hvfs
      refine h.of_frame (hvfs ▸ h.aligned) (fun f => ?_) fun f hf => ⟨hf, ?_⟩
      · exact (congrArg (fun x : File => x.children.length) (hfile f)).trans (h.children f)
      · exact congrArg File.parent (hfile f)
  | rmfile pid desc =>
      obtain rfl := hstep
      unfold Kernel.rmfile
      split_ifs
      · rwa [afterRemoval_refused (by decide)]
      · rwa [afterRemoval_refused (by decide)]
      · exact h.remove _
  | rmdir pid desc =>
      obtain rfl := hstep
      unfold Kernel.rmdir
      split_ifs
      · rwa [afterRemoval_refused (by decide)]
      · rwa [afterRemoval_refused (by decide)]
      · rwa [afterRemoval_refused (by decide)]
      · exact h.remove _
  | chmeta pid desc name type mode =>
      obtain rfl := hstep
      have hfile := fun f => chmeta_file (k := k) (s := s.kernel) pid desc name type mode f
      refine h.of_frame (chmeta_aligned h.aligned pid desc name type mode) (fun f => ?_)
        fun f hf => ⟨hf, ?_⟩
      · obtain ⟨data, heq⟩ := hfile f
        exact (congrArg (fun x : File => x.children.length) heq).trans (h.children f)
      · obtain ⟨data, heq⟩ := hfile f
        have hparent := congrArg File.parent heq
        exact hparent

/-- While no partition is mounted, the files are a tree when `dev` and `mods` have
both been removed. -/
theorem tree_iff_of_unmounted
    {b : Boot} {run : List (TreeOp × FileSystem)}
    (haligned : (finalizeKernelData b).kernel.vfs.Aligned)
    (hrun : Run (TreeStep k driver) (finalizeKernelData b) run)
    (hunmounted : StepsMeet (Unmounted driver) (finalizeKernelData b) run) :
    Always (fun s => IsTree s ↔ s.live DEV_INDEX = false ∧ s.live MODS_INDEX = false)
      (finalizeKernelData b) run := by
  have hbare : Always Bare (finalizeKernelData b) run :=
    always_of_stepsMeet (fun _ _ _ h hC hstep => h.step hC hstep) hrun
      (bare_finalizeKernelData haligned) hunmounted
  exact hbare.mono fun _ h => h.isTree_iff

end Unmounted

section Insertion

variable {driver : DiskDriver} {s s' : FileSystem} {dir g u : Nat}
  {recurse : FileSystem → Nat → Option FileSystem}

/-- A pool that cannot grow changes its count at most. -/
theorem alloc_count
    (h : Hash) (reqlen : Half) :
    ∃ count, (h.alloc reqlen 0).2 = { h with count := count } := by
  unfold Hash.alloc
  split
  · exact ⟨_, rfl⟩
  · rw [if_neg (by simp)]
    exact ⟨_, rfl⟩

/-- The section found depends on the marks and on where the pool is. -/
theorem alloc_found
    (h : Hash) (reqlen : Half) :
    (h.alloc reqlen 0).1 =
      (Hash.allocLoop h.ckarray reqlen h.length.toNat 0 0).map fun i =>
        h.pool + 8#64 * BitVec.ofNat 64 i := by
  unfold Hash.alloc
  split
  · rename_i heq
    rw [heq]
    rfl
  · rename_i heq
    rw [heq, if_neg (by simp)]
    rfl

/-- The slot is still free after it was handed out. -/
theorem takeFile_again :
    s.takeFile.2.takeFile.1 = s.takeFile.1 := by
  obtain ⟨count, hcount⟩ := alloc_count s.kernel.vfs.pool 1
  have hpool : s.takeFile.2.kernel.vfs.pool = { s.kernel.vfs.pool with count := count } := hcount
  have hfound : (s.takeFile.2.kernel.vfs.pool.alloc 1 0).1 = (s.kernel.vfs.pool.alloc 1 0).1 := by
    rw [alloc_found, alloc_found, hpool]
  change (s.takeFile.2.kernel.vfs.pool.alloc 1 0).1.elim s.kernel.vfs.null
    s.takeFile.2.kernel.vfs.pool.slotOf = _
  rw [hfound, hpool]
  rfl

theorem file_modify_of_ne
    {f : Nat} {write : File → File}
    (hne : dir ≠ f) :
    (s.modify f write).file dir = s.file dir :=
  Function.update_of_ne hne _ _

theorem file_modify_self
    {f : Nat} {write : File → File} :
    (s.modify f write).file f = write (s.file f) :=
  Function.update_self _ _ _

theorem file_loadFile_of_ne
    {f : Nat} {loaded : File}
    (hne : dir ≠ f) :
    (s.loadFile f loaded).file dir = s.file dir :=
  Function.update_of_ne hne _ _

/-- One entry: the file goes to the slot `g`, and the entry is that slot. -/
theorem insertEntry_spec
    (driver : DiskDriver) (dir u : Nat)
    (hslot : s.takeFile.1 = g) :
    (s.insertEntry driver dir u).1 = g ∧ (s.insertEntry driver dir u).2.takeFile.1 = g ∧
      (∀ f, f ≠ g → f ≠ dir → (s.insertEntry driver dir u).2.file f = s.file f) ∧
      (dir ≠ g → (s.insertEntry driver dir u).2.file dir =
        { s.file dir with entries := Function.update (s.file dir).entries u g }) := by
  subst hslot
  refine ⟨rfl, takeFile_again, fun f hg hdir => ?_, fun hdir => ?_⟩
  · unfold FileSystem.insertEntry
    dsimp only
    rw [file_modify_of_ne hg, file_modify_of_ne hdir, file_modify_of_ne hg]
    exact file_loadFile_of_ne hg
  · unfold FileSystem.insertEntry
    dsimp only
    rw [file_modify_of_ne hdir, file_modify_self, file_modify_of_ne hdir]
    have hloaded : (s.takeFile.2.loadFile s.takeFile.1
        (driver.load_file ((s.takeFile.2.file dir).entries u))).file dir = s.file dir :=
      file_loadFile_of_ne hdir
    exact congrArg (fun d : File =>
      { d with entries := Function.update d.entries u s.takeFile.1 }) hloaded

/-- What the insertion into the slot itself may do. -/
def InsertsOnly (g : Nat) (recurse : FileSystem → Nat → Option FileSystem) : Prop :=
  ∀ s s', s.takeFile.1 = g → recurse s g = some s' →
    s'.takeFile.1 = g ∧ ∀ f, f ≠ g → s'.file f = s.file f

/-- The loop over the entries, from `u` on. -/
theorem insertLoop_spec
    {fuel : Nat}
    (hrecurse : InsertsOnly g recurse)
    (hslot : s.takeFile.1 = g)
    (h : FileSystem.insertLoop driver recurse dir fuel s u = some s') :
    s'.takeFile.1 = g ∧ (∀ f, f ≠ g → f ≠ dir → s'.file f = s.file f) ∧
      (dir ≠ g → (s'.file dir).children = (s.file dir).children ∧
        (∀ i, i < u → (s'.file dir).entries i = (s.file dir).entries i) ∧
        ∀ i, u ≤ i → i < (s.file dir).children.count.toNat → (s'.file dir).entries i = g) := by
  induction fuel generalizing s u with
  | zero => cases h
  | succ fuel ih =>
      rw [FileSystem.insertLoop] at h
      by_cases hu : u < (s.file dir).children.count.toNat
      · rw [if_pos hu] at h
        dsimp only at h
        obtain ⟨hfirst, hslot₁, hother₁, hdir₁⟩ :=
          insertEntry_spec driver dir u hslot
        rw [hfirst] at h
        cases hrec : recurse (s.insertEntry driver dir u).2 g with
        | none =>
            rw [hrec] at h
            cases h
        | some s₂ =>
            rw [hrec] at h
            obtain ⟨hslot₂, hfile₂⟩ := hrecurse _ _ hslot₁ hrec
            obtain ⟨hslot', hother', hdir'⟩ := ih hslot₂ h
            refine ⟨hslot', fun f hg hf => ?_, fun hne => ?_⟩
            · rw [hother' f hg hf, hfile₂ f hg, hother₁ f hg hf]
            · obtain ⟨hchildren, hbelow, habove⟩ := hdir' hne
              rw [hfile₂ dir hne, hdir₁ hne] at hchildren hbelow habove
              refine ⟨hchildren, fun i hi => ?_, fun i hi hcount => ?_⟩
              · rw [hbelow i (by omega)]
                exact Function.update_of_ne (by omega) _ _
              · rcases Nat.eq_or_lt_of_le hi with rfl | hlt
                · rw [hbelow u (by omega)]
                  exact Function.update_self _ _ _
                · exact habove i hlt hcount
      · rw [if_neg hu] at h
        cases h
        exact ⟨hslot, fun _ _ _ => rfl,
          fun _ => ⟨rfl, fun _ _ => rfl, fun i hi hcount => absurd hcount (by omega)⟩⟩

theorem fetchEntries_spec
    (driver : DiskDriver) (s : FileSystem) (dir : Nat) :
    (s.fetchEntries driver dir).takeFile.1 = s.takeFile.1 ∧
      (∀ f, f ≠ dir → (s.fetchEntries driver dir).file f = s.file f) ∧
      ((s.fetchEntries driver dir).file dir).children.count = (s.file dir).children.count := by
  refine ⟨rfl, fun f hf => file_modify_of_ne hf, ?_⟩
  unfold FileSystem.fetchEntries
  dsimp only
  rw [file_modify_self]
  rfl

theorem recursiveInsert_insertsOnly
    (fuel : Nat) :
    InsertsOnly g (FileSystem.recursiveInsert driver fuel) := by
  induction fuel with
  | zero =>
      intro s s' _ h
      cases h
  | succ fuel ih =>
      intro s s' hslot h
      rw [FileSystem.recursiveInsert] at h
      split_ifs at h
      · cases h
        exact ⟨hslot, fun _ _ => rfl⟩
      · obtain ⟨hslot₁, hother₁, _⟩ := fetchEntries_spec driver s g
        obtain ⟨hslot', hother', _⟩ := insertLoop_spec ih (hslot₁.trans hslot) h
        exact ⟨hslot', fun f hf => (hother' f hf hf).trans (hother₁ f hf)⟩

/-- **All entries of a directory that is inserted become the same file.** -/
theorem recursiveInsert_entries
    {fuel : Nat}
    (h : s.recursiveInsert driver fuel dir = some s')
    (htype : (s.file dir).data.type = DIRECTORY)
    (hdir : dir ≠ s.takeFile.1)
    (i : Nat)
    (hi : i < (s.file dir).children.count.toNat) :
    (s'.file dir).entries i = s.takeFile.1 := by
  cases fuel with
  | zero => cases h
  | succ fuel =>
      rw [FileSystem.recursiveInsert, if_neg (not_not.mpr htype)] at h
      obtain ⟨hslot, _, hcount⟩ := fetchEntries_spec driver s dir
      obtain ⟨_, _, hentries⟩ := insertLoop_spec (recursiveInsert_insertsOnly fuel) hslot h
      exact (hentries hdir).2.2 i (Nat.zero_le i) (hcount ▸ hi)

end Insertion

section Never

variable {k : Constants} {driver : DiskDriver}

/-- The root has no list of children, and `dev` and `mods` are its children. -/
theorem not_isTree_finalizeKernelData
    (b : Boot) :
    ¬ IsTree (finalizeKernelData b) := by
  intro htree
  have hlisted := (htree.parent DEV_INDEX rfl (by decide)).2.2
  have hnil : (finalizeKernelData b).kernel.vfs.liveChildren ROOT_INDEX = [] := rfl
  have hparent : ((finalizeKernelData b).file DEV_INDEX).parent = ROOT_INDEX := rfl
  rw [hparent, hnil] at hlisted
  cases hlisted

/--
**From what `finalize_kernel_data` builds, no run keeps the files a tree; and while no
partition is mounted, they are one only when `dev` and `mods` are both gone.**
-/
theorem tree_never_kept
    {b : Boot} {run : List (TreeOp × FileSystem)}
    (haligned : (finalizeKernelData b).kernel.vfs.Aligned)
    (hrun : Run (TreeStep k driver) (finalizeKernelData b) run) :
    ¬ TreeKept (finalizeKernelData b) run ∧
      (StepsMeet (Unmounted driver) (finalizeKernelData b) run →
        Always (fun s => IsTree s ↔ s.live DEV_INDEX = false ∧ s.live MODS_INDEX = false)
          (finalizeKernelData b) run) :=
  ⟨fun h => not_isTree_finalizeKernelData b h.1.1, tree_iff_of_unmounted haligned hrun⟩

end Never

/-- Three files, and processes that have the root open. -/
def bootedBoot : Boot where
  vfs := ⟨.POINTER, 3, 0, fun _ => 0, 4096, 8⟩
  kptr := ⟨.POINTER, 512, 0, fun _ => 0, 8192, 8⟩
  null := 100
  sizeofFile := 256
  processes := fun _ => nestedProcess
  descriptor := ⟨0, 0, 0⟩

/-- A disk without files. -/
def emptyDisk : DiskDriver where
  files_number := fun _ => 0
  load_partition := fun _ => Vfs.zeroFile 100
  load_file := fun _ => Vfs.zeroFile 100
  getdir_entries := fun _ _ => 100

/-- The files of the boot above after a `SYS_RMDIR` of the root. -/
def rootRemoved : FileSystem :=
  let s := finalizeKernelData bootedBoot
  s.afterRemoval (s.kernel.fileOf 0 0) (s.kernel.rmdir 0 0)

theorem tree_never_kept_rmdir :
    ¬ TreeKept (finalizeKernelData bootedBoot) [(TreeOp.rmdir 0 0, rootRemoved)] ∧
      (StepsMeet (Unmounted emptyDisk) (finalizeKernelData bootedBoot)
          [(TreeOp.rmdir 0 0, rootRemoved)] →
        Always (fun s => IsTree s ↔ s.live DEV_INDEX = false ∧ s.live MODS_INDEX = false)
          (finalizeKernelData bootedBoot) [(TreeOp.rmdir 0 0, rootRemoved)]) := by
  have hstep : TreeStep rootZero emptyDisk (finalizeKernelData bootedBoot) (.rmdir 0 0)
      rootRemoved := rfl
  exact tree_never_kept ⟨by decide, by decide⟩ (Run.cons hstep (Run.nil _))

/-- `dev` is not in the list of the root, and a `SYS_RMDIR` frees the root over it. -/
theorem booted_not_tree :
    ¬ IsTree (finalizeKernelData bootedBoot) ∧
      TreeStep rootZero emptyDisk (finalizeKernelData bootedBoot) (.rmdir 0 0) rootRemoved ∧
      ¬ FreesLeaves (finalizeKernelData bootedBoot) (.rmdir 0 0) rootRemoved := by
  refine ⟨not_isTree_finalizeKernelData _, rfl, fun hleaves => ?_⟩
  exact hleaves ROOT_INDEX (by decide) (by decide) (by decide) DEV_INDEX (by decide) (by decide) rfl

end Filesystem
end BestKernel
