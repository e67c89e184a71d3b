import BestKernel.Filesystem.Mount
import Mathlib.Algebra.BigOperators.Group.Finset.Basic
import Mathlib.Algebra.Order.BigOperators.Group.Finset
import Mathlib.Data.Finset.Card

/-!
# Whole partitions

`mount` should load every file of a partition into a slot of its own, or refuse.  The driver
is taken to describe a finite tree of as many files and directories as it counts
(`Describes`).

What is loaded goes to two slots, that of the root, which is not initialised, and the one
that `alloc` comes to again and again (`mount_loads`).  So a partition of three files or more
is never loaded whole, and one of two only as a root with one file or one empty directory
(`mount_whole_iff`).

The calendar is taken before the check and released behind each of the two exits.
-/

namespace BestKernel
namespace Filesystem

open Machine
open Syscalls (DIRECTORY)

/-- A file of the disk as it lies in memory once it is mounted. -/
def File.mounted (f : File) (part : Half) (parent : Nat) : File :=
  { f with data := { f.data with partition := part }, parent := parent }

/-- A file without entries: no directory, or an empty one. -/
def File.Childless (f : File) : Prop :=
  f.data.type ≠ DIRECTORY ∨ f.children.count.toNat = 0

/-- Below what the driver loads there is a tree of so many files and directories: the entries
of a directory are the same wherever the directory is mounted, and each leads to a tree. -/
inductive Describes (driver : DiskDriver) (part : Half) : File → Nat → Prop
  | file {f : File}
      (htype : f.data.type ≠ DIRECTORY) :
      Describes driver part f 1
  | directory {f : File} (pointers sizes : Nat → Nat)
      (htype : f.data.type = DIRECTORY)
      (hentries : ∀ parent, driver.getdir_entries (f.mounted part parent) = pointers)
      (hchildren : ∀ u, u < f.children.count.toNat →
        Describes driver part (driver.load_file (pointers u)) (sizes u)) :
      Describes driver part f (1 + ∑ u ∈ Finset.range f.children.count.toNat, sizes u)

/-- What `mount` returns, the files, and the calendar of the vfs behind it. -/
structure Mounted where
  ret : Int
  files : FileSystem
  calendar : Byte

namespace FileSystem

section Law

variable (driver : DiskDriver) (s : FileSystem) (part : Half) (root : Nat)

/-- `mount`, behind each of whose exits the calendar is 0. -/
def lockedMount (fuel : Nat) : Option Mounted :=
  (s.mount driver part root fuel).map fun (ret, s) => ⟨ret, s, 0⟩

/-- The slots of the pool that are not live. -/
def freeFiles : Finset Nat :=
  (Finset.range s.kernel.vfs.pool.length.toNat).filter fun f => s.live f = false

/-- The slots of the pool that have become live. -/
def newFiles (s' : FileSystem) : Finset Nat :=
  s.freeFiles.filter fun f => s'.live f = true

/-- Every file of the partition is loaded. -/
structure LoadsWhole (s' : FileSystem) : Prop where
  all : (s.newFiles s').card = (driver.files_number part).toNat
  partition : ∀ f, f ∈ s.newFiles s' → (s'.file f).data.partition = part
  parent : ∀ d, d ∈ s.newFiles s' → (s'.file d).data.type = DIRECTORY →
    ∀ u, u < (s'.file d).children.count.toNat → (s'.file ((s'.file d).entries u)).parent = d
  kept : ∀ f, s.live f = true → s'.live f = true ∧ s'.file f = s.file f

/-- **`mount` ends with the whole partition loaded, or refuses it where there is no room.** -/
def MountRight : Prop :=
  ∃ fuel m, s.lockedMount driver part root fuel = some m ∧ m.calendar = 0 ∧
    (s.freeFiles.card < (driver.files_number part).toNat →
      m.ret = 1 ∧ m.files.kernel.vfs = s.kernel.vfs) ∧
    ((driver.files_number part).toNat ≤ s.freeFiles.card →
      m.ret = 0 ∧ s.LoadsWhole driver part m.files)

/-- The check of `mount`. -/
def MountRefused : Prop :=
  (s.kernel.vfs.pool.length - s.kernel.vfs.pool.count).setWidth 64 < driver.files_number part

/-- When that is so: the check refuses a partition for which there is no room, or there is room,
and the one or two files go to free slots. -/
def MountSafe : Prop :=
  (s.MountRefused driver part ∧ s.freeFiles.card < (driver.files_number part).toNat) ∨
    (¬ s.MountRefused driver part ∧ (driver.files_number part).toNat ≤ s.freeFiles.card ∧
      root ∈ s.freeFiles ∧
        ((driver.files_number part).toNat = 1 ∨
          (driver.files_number part).toNat = 2 ∧ s.takeFile.1 ∈ s.freeFiles ∧
            s.takeFile.1 ≠ root))

end Law

end FileSystem

section Trees

variable {driver : DiskDriver} {part : Half} {f : File} {n : Nat}

theorem Describes.pos
    (h : Describes driver part f n) :
    0 < n := by
  cases h with
  | file _ => exact Nat.one_pos
  | directory pointers sizes _ _ _ => omega

/-- A tree of one is a file or an empty directory. -/
theorem Describes.childless
    (h : Describes driver part f 1) :
    f.Childless := by
  generalize hn : 1 = n at h
  cases h with
  | file htype => exact Or.inl htype
  | directory pointers sizes htype hentries hchildren =>
      right
      by_contra hcount
      have hfirst := hchildren 0 (Nat.pos_of_ne_zero hcount)
      have hle : sizes 0 ≤ ∑ u ∈ Finset.range f.children.count.toNat, sizes u :=
        Finset.single_le_sum (fun _ _ => Nat.zero_le _)
          (Finset.mem_range.mpr (Nat.pos_of_ne_zero hcount))
      have hpos := hfirst.pos
      omega

/-- A tree of two is a directory with one such child. -/
theorem Describes.only_child
    (h : Describes driver part f 2) :
    f.data.type = DIRECTORY ∧ f.children.count.toNat = 1 ∧
      ∀ parent, Describes driver part
        (driver.load_file (driver.getdir_entries (f.mounted part parent) 0)) 1 := by
  generalize hn : 2 = n at h
  cases h with
  | file _ => omega
  | directory pointers sizes htype hentries hchildren =>
      have hsum : f.children.count.toNat ≤
          ∑ u ∈ Finset.range f.children.count.toNat, sizes u := by
        calc f.children.count.toNat
            = ∑ _u ∈ Finset.range f.children.count.toNat, 1 := by simp
          _ ≤ ∑ u ∈ Finset.range f.children.count.toNat, sizes u :=
              Finset.sum_le_sum fun u hu => (hchildren u (Finset.mem_range.mp hu)).pos
      have hcount : f.children.count.toNat = 1 := by
        rcases Nat.eq_zero_or_pos f.children.count.toNat with hzero | hpos
        · rw [hzero] at hn
          simp at hn
        · omega
      refine ⟨htype, hcount, fun parent => ?_⟩
      have hchild := hchildren 0 (by omega)
      rw [hcount, Finset.sum_range_one] at hn
      have hsize : sizes 0 = 1 := by omega
      rw [hsize] at hchild
      rwa [hentries parent]

end Trees

section Loading

variable {driver : DiskDriver} {s s' : FileSystem} {part : Half} {root dir g u fuel : Nat}

theorem live_insertEntry
    (driver : DiskDriver) (dir u : Nat)
    (hslot : s.takeFile.1 = g) :
    (s.insertEntry driver dir u).2.live = Function.update s.live g true := by
  subst hslot
  rfl

/-- What every round keeps, the loop over the entries keeps. -/
theorem insertLoop_invariant
    {I : FileSystem → Prop} {recurse : FileSystem → Nat → Option FileSystem}
    (hround : ∀ t t' u, I t →
      recurse (t.insertEntry driver dir u).2 (t.insertEntry driver dir u).1 = some t' → I t')
    (hs : I s)
    (h : FileSystem.insertLoop driver recurse dir fuel s u = some s') :
    I s' := by
  induction fuel generalizing s u with
  | zero => cases h
  | succ fuel ih =>
      rw [FileSystem.insertLoop] at h
      split_ifs at h
      · dsimp only at h
        cases hrec : recurse (s.insertEntry driver dir u).2 (s.insertEntry driver dir u).1 with
        | none =>
            rw [hrec] at h
            cases h
        | some t =>
            rw [hrec] at h
            exact ih (hround s t u hs hrec) h
      · cases h
        exact hs

/-- Nothing but the slot itself becomes live. -/
def LoadsOnly (g : Nat) (recurse : FileSystem → Nat → Option FileSystem) : Prop :=
  ∀ s s', s.takeFile.1 = g → recurse s g = some s' →
    s'.takeFile.1 = g ∧ ∀ f, f ≠ g → s'.live f = s.live f

theorem live_insertLoop
    {recurse : FileSystem → Nat → Option FileSystem}
    (hrecurse : LoadsOnly g recurse)
    (hslot : s.takeFile.1 = g)
    (h : FileSystem.insertLoop driver recurse dir fuel s u = some s') :
    s'.takeFile.1 = g ∧ ∀ f, f ≠ g → s'.live f = s.live f := by
  refine insertLoop_invariant
    (I := fun t => t.takeFile.1 = g ∧ ∀ f, f ≠ g → t.live f = s.live f) ?_
    ⟨hslot, fun _ _ => rfl⟩ h
  rintro t t' u ⟨ht, hlive⟩ hrec
  obtain ⟨hfirst, hslot₁, _⟩ := insertEntry_spec driver dir u ht
  rw [hfirst] at hrec
  obtain ⟨hslot₂, hlive₂⟩ := hrecurse _ _ hslot₁ hrec
  refine ⟨hslot₂, fun f hf => ?_⟩
  rw [hlive₂ f hf, live_insertEntry driver dir u ht, Function.update_of_ne hf, hlive f hf]

theorem recursiveInsert_loadsOnly
    (driver : DiskDriver) (g fuel : Nat) :
    LoadsOnly g (FileSystem.recursiveInsert driver fuel) := by
  induction fuel with
  | zero =>
      intro s s' _ h
      cases h
  | succ fuel ih =>
      intro s s' hslot h
      rw [FileSystem.recursiveInsert] at h
      split_ifs at h
      · cases h
        exact ⟨hslot, fun _ _ => rfl⟩
      · have hloop := live_insertLoop ih ((fetchEntries_spec driver s g).1.trans hslot) h
        exact hloop

/-- The files as `mount` hands them to `recursive_insert`. -/
def rootLoaded (driver : DiskDriver) (s : FileSystem) (part : Half) (root : Nat) : FileSystem :=
  (s.loadFile root (driver.load_partition part)).modify root fun f =>
    { f with data := { f.data with partition := part } }

theorem rootLoaded_file
    (driver : DiskDriver) (s : FileSystem) (part : Half) (root : Nat) :
    (rootLoaded driver s part root).file root =
      (driver.load_partition part).mounted part (driver.load_partition part).parent := by
  rw [rootLoaded, file_modify_self]
  have hloaded : (s.loadFile root (driver.load_partition part)).file root =
      driver.load_partition part := Function.update_self _ _ _
  rw [hloaded]
  rfl

theorem rootLoaded_file_of_ne
    {f : Nat}
    (hf : f ≠ root) :
    (rootLoaded driver s part root).file f = s.file f := by
  rw [rootLoaded, file_modify_of_ne hf, file_loadFile_of_ne hf]

theorem rootLoaded_live :
    (rootLoaded driver s part root).live = Function.update s.live root true :=
  rfl

theorem rootLoaded_slot :
    (rootLoaded driver s part root).takeFile.1 = s.takeFile.1 :=
  rfl

theorem mount_loaded
    (hpasses : ¬ s.MountRefused driver part) :
    s.mount driver part root fuel =
      ((rootLoaded driver s part root).recursiveInsert driver fuel root).map fun s => (0, s) := by
  rw [FileSystem.mount]
  exact if_neg hpasses

/-- **A mount touches two slots, the root and the one that `alloc` comes to.** -/
theorem mount_loads
    {ret : Int}
    (hpasses : ¬ s.MountRefused driver part)
    (h : s.mount driver part root fuel = some (ret, s')) :
    ret = 0 ∧ ∀ f, f ≠ root → f ≠ s.takeFile.1 →
      s'.live f = s.live f ∧ s'.file f = s.file f := by
  rw [mount_loaded hpasses, Option.map_eq_some_iff] at h
  obtain ⟨t, hinsert, heq⟩ := h
  cases heq
  refine ⟨rfl, fun f hroot hslot => ?_⟩
  cases fuel with
  | zero => cases hinsert
  | succ fuel =>
      rw [FileSystem.recursiveInsert] at hinsert
      split_ifs at hinsert
      · cases hinsert
        rw [rootLoaded_live, rootLoaded_file_of_ne hroot, Function.update_of_ne hroot]
        exact ⟨rfl, rfl⟩
      · obtain ⟨hfetched, hother, _⟩ :=
          fetchEntries_spec driver (rootLoaded driver s part root) root
        have hlive := (live_insertLoop (recursiveInsert_loadsOnly driver _ fuel) hfetched
          hinsert).2 f hslot
        have hfile := (insertLoop_spec (recursiveInsert_insertsOnly fuel) hfetched
          hinsert).2.1 f hslot hroot
        rw [hlive, hfile, hother f hroot, rootLoaded_file_of_ne hroot]
        exact ⟨Function.update_of_ne hroot _ _, rfl⟩

/-- A file without entries keeps what it is, and so do all others. -/
structure SameFiles (d : Nat) (s s' : FileSystem) : Prop where
  live : s'.live = s.live
  others : ∀ f, f ≠ d → s'.file f = s.file f
  data : (s'.file d).data = (s.file d).data
  parent : (s'.file d).parent = (s.file d).parent
  count : (s'.file d).children.count = (s.file d).children.count

/-- The directory has its entries behind `getdir_entries`, and is otherwise what it was. -/
theorem fetchEntries_file
    (driver : DiskDriver) (s : FileSystem) (d : Nat) :
    ∃ pool, (s.fetchEntries driver d).file d =
      { s.file d with
        children := { (s.file d).children with pool := pool }
        entries := driver.getdir_entries (s.file d) } :=
  ⟨_, file_modify_self⟩

theorem sameFiles_fetchEntries
    (driver : DiskDriver) (s : FileSystem) (d : Nat) :
    SameFiles d s (s.fetchEntries driver d) := by
  obtain ⟨_, hothers, hcount⟩ := fetchEntries_spec driver s d
  obtain ⟨pool, hfile⟩ := fetchEntries_file driver s d
  exact ⟨rfl, hothers, by rw [hfile], by rw [hfile], hcount⟩

/-- `recursive_insert` of a file without entries. -/
theorem recursiveInsert_childless
    {d : Nat}
    (hchildless : (s.file d).Childless)
    (h : s.recursiveInsert driver fuel d = some s') :
    SameFiles d s s' := by
  cases fuel with
  | zero => cases h
  | succ fuel =>
      rw [FileSystem.recursiveInsert] at h
      split_ifs at h with htype
      · cases h
        exact ⟨rfl, fun _ _ => rfl, rfl, rfl, rfl⟩
      · cases fuel with
        | zero => cases h
        | succ fuel =>
            have hsame := sameFiles_fetchEntries driver s d
            have hempty : ¬ 0 < ((s.fetchEntries driver d).file d).children.count.toNat := by
              rw [hsame.count]
              have hnone := hchildless.resolve_left htype
              omega
            rw [FileSystem.insertLoop, if_neg hempty] at h
            cases h
            exact hsame

/-- It ends. -/
theorem recursiveInsert_childless_ends
    (driver : DiskDriver) {d : Nat}
    (hchildless : (s.file d).Childless)
    (fuel : Nat) :
    ∃ s', s.recursiveInsert driver (fuel + 2) d = some s' := by
  rw [FileSystem.recursiveInsert]
  by_cases htype : (s.file d).data.type ≠ DIRECTORY
  · exact ⟨s, if_pos htype⟩
  · have hempty : ¬ 0 < ((s.fetchEntries driver d).file d).children.count.toNat := by
      rw [(sameFiles_fetchEntries driver s d).count]
      have hnone := hchildless.resolve_left htype
      omega
    rw [if_neg htype, FileSystem.insertLoop, if_neg hempty]
    exact ⟨_, rfl⟩

/-- An entry that goes to another slot is mounted there. -/
theorem insertEntry_file
    (driver : DiskDriver) (u : Nat)
    (hslot : s.takeFile.1 = g)
    (hdir : dir ≠ g) :
    (s.insertEntry driver dir u).2.file g =
      (driver.load_file ((s.file dir).entries u)).mounted (s.file dir).data.partition dir := by
  subst hslot
  have hloaded : ∀ loaded, (s.takeFile.2.loadFile s.takeFile.1 loaded).file s.takeFile.1 =
      loaded := fun _ => Function.update_self _ _ _
  have hother : ∀ loaded, (s.takeFile.2.loadFile s.takeFile.1 loaded).file dir = s.file dir :=
    fun _ => file_loadFile_of_ne hdir
  unfold FileSystem.insertEntry
  dsimp only
  rw [file_modify_self, file_modify_of_ne hdir.symm, file_modify_self, hloaded, hother]
  rfl

/-- The loop over a single entry. -/
theorem insertLoop_single
    {recurse : FileSystem → Nat → Option FileSystem}
    (hslot : s.takeFile.1 = g)
    (hcount : (s.file dir).children.count.toNat = 1)
    (hrecurse : recurse (s.insertEntry driver dir 0).2 g = some s')
    (hcount' : (s'.file dir).children.count.toNat = 1)
    (fuel : Nat) :
    FileSystem.insertLoop driver recurse dir (fuel + 2) s 0 = some s' := by
  have hfirst := (insertEntry_spec driver dir 0 hslot).1
  rw [FileSystem.insertLoop, if_pos (by omega)]
  dsimp only
  rw [hfirst, hrecurse]
  dsimp only
  rw [FileSystem.insertLoop, if_neg (by omega)]

/-- A directory with one child, and the child in the slot `g`. -/
structure InsertsPair (dir g : Nat) (s s' : FileSystem) : Prop where
  live : s'.live = Function.update s.live g true
  others : ∀ f, f ≠ dir → f ≠ g → s'.file f = s.file f
  data : (s'.file dir).data = (s.file dir).data
  count : (s'.file dir).children.count.toNat = 1
  entry : (s'.file dir).entries 0 = g
  partition : (s'.file g).data.partition = (s.file dir).data.partition
  parent : (s'.file g).parent = dir
  childless : (s'.file g).Childless

/-- `recursive_insert` of a directory whose only child has no entries itself. -/
theorem recursiveInsert_pair
    (driver : DiskDriver)
    (hslot : s.takeFile.1 = g)
    (hne : g ≠ dir)
    (htype : (s.file dir).data.type = DIRECTORY)
    (hcount : (s.file dir).children.count.toNat = 1)
    (hchildless : (driver.load_file (driver.getdir_entries (s.file dir) 0)).Childless) :
    ∃ s', s.recursiveInsert driver 5 dir = some s' ∧ InsertsPair dir g s s' := by
  -- the entries of the directory are fetched
  have hsame₁ := sameFiles_fetchEntries driver s dir
  obtain ⟨pool, hdir₁⟩ := fetchEntries_file driver s dir
  have hslot₁ := (fetchEntries_spec driver s dir).1.trans hslot
  have hcount₁ : ((s.fetchEntries driver dir).file dir).children.count.toNat = 1 := by
    rw [hsame₁.count, hcount]
  -- the only one goes to the slot `g`
  obtain ⟨_, _, hothers₂, hdir₂⟩ := insertEntry_spec driver dir 0 hslot₁
  have hchild₂ := insertEntry_file driver 0 hslot₁ hne.symm
  have hlive₂ := live_insertEntry driver dir 0 hslot₁
  rw [hsame₁.data, hdir₁] at hchild₂
  replace hdir₂ := hdir₂ hne.symm
  -- and has no entries itself
  have hleaf : (((s.fetchEntries driver dir).insertEntry driver dir 0).2.file g).Childless := by
    rw [hchild₂]
    exact hchildless
  obtain ⟨s₃, hends⟩ := recursiveInsert_childless_ends driver hleaf 2
  have hsame₃ := recursiveInsert_childless hleaf hends
  have hdir₃ := (hsame₃.others dir hne.symm).trans hdir₂
  have hcount₃ : (s₃.file dir).children.count.toNat = 1 := by
    rw [hdir₃]
    exact hcount₁
  refine ⟨s₃, ?_, ?_⟩
  · rw [FileSystem.recursiveInsert, if_neg (not_not.mpr htype)]
    exact insertLoop_single hslot₁ hcount₁ hends hcount₃ 2
  · constructor
    · rw [hsame₃.live, hlive₂, hsame₁.live]
    · intro f hdir hf
      rw [hsame₃.others f hf, hothers₂ f hf hdir, hsame₁.others f hdir]
    · rw [hdir₃]
      exact hsame₁.data
    · exact hcount₃
    · simp [hdir₃]
    · rw [hsame₃.data, hchild₂]
      rfl
    · rw [hsame₃.parent, hchild₂]
      rfl
    · rw [File.Childless, hsame₃.data, hsame₃.count, hchild₂]
      exact hchildless

end Loading

section Whole

variable {driver : DiskDriver} {s s' : FileSystem} {part : Half} {root fuel : Nat}

theorem mem_newFiles
    {f : Nat} :
    f ∈ s.newFiles s' ↔ f ∈ s.freeFiles ∧ s'.live f = true :=
  Finset.mem_filter

theorem mem_freeFiles
    {f : Nat} :
    f ∈ s.freeFiles ↔ f < s.kernel.vfs.pool.length.toNat ∧ s.live f = false := by
  rw [FileSystem.freeFiles, Finset.mem_filter, Finset.mem_range]

/-- What is in use is not in a free slot. -/
theorem ne_of_live
    {f g : Nat}
    (hf : s.live f = true)
    (hg : g ∈ s.freeFiles) :
    f ≠ g := by
  rintro rfl
  rw [(mem_freeFiles.mp hg).2] at hf
  cases hf

/-- The new files are among the two slots. -/
theorem newFiles_subset
    {ret : Int}
    (hpasses : ¬ s.MountRefused driver part)
    (h : s.mount driver part root fuel = some (ret, s')) :
    s.newFiles s' ⊆ {root, s.takeFile.1} := by
  intro f hf
  obtain ⟨hfree, hlive⟩ := mem_newFiles.mp hf
  by_contra hother
  rw [Finset.mem_insert, Finset.mem_singleton, not_or] at hother
  have hkept := ((mount_loads hpasses h).2 f hother.1 hother.2).1
  rw [hlive, (mem_freeFiles.mp hfree).2] at hkept
  cases hkept

/-- A file alone goes to the slot of the root. -/
theorem mount_one
    {ret : Int}
    (hdescribes : Describes driver part (driver.load_partition part) 1)
    (hpasses : ¬ s.MountRefused driver part)
    (h : s.mount driver part root fuel = some (ret, s')) :
    SameFiles root (rootLoaded driver s part root) s' := by
  rw [mount_loaded hpasses, Option.map_eq_some_iff] at h
  obtain ⟨t, hinsert, heq⟩ := h
  cases heq
  refine recursiveInsert_childless ?_ hinsert
  rw [rootLoaded_file]
  exact hdescribes.childless

theorem loadsWhole_one
    (hcount : (driver.files_number part).toNat = 1)
    (hdescribes : Describes driver part (driver.load_partition part) 1)
    (hfree : root ∈ s.freeFiles)
    (hsame : SameFiles root (rootLoaded driver s part root) s') :
    s.LoadsWhole driver part s' := by
  have hlive : s'.live = Function.update s.live root true := hsame.live
  have hnew : s.newFiles s' = {root} := by
    ext f
    rw [mem_newFiles, Finset.mem_singleton, hlive]
    constructor
    · rintro ⟨hf, hflive⟩
      by_contra hne
      rw [Function.update_of_ne hne, (mem_freeFiles.mp hf).2] at hflive
      cases hflive
    · rintro rfl
      exact ⟨hfree, Function.update_self _ _ _⟩
  refine ⟨?_, fun f hf => ?_, fun d hd htype u hu => ?_, fun f hf => ?_⟩
  · rw [hnew, hcount, Finset.card_singleton]
  · rw [hnew, Finset.mem_singleton] at hf
    subst hf
    rw [hsame.data, rootLoaded_file]
    rfl
  · rw [hnew, Finset.mem_singleton] at hd
    subst hd
    rw [hsame.data, rootLoaded_file] at htype
    rw [hsame.count, rootLoaded_file] at hu
    have hnone : (driver.load_partition part).children.count.toNat = 0 :=
      hdescribes.childless.resolve_left (not_not.mpr htype)
    exact absurd hu (by simp [File.mounted, hnone])
  · have hne : f ≠ root := ne_of_live hf hfree
    rw [hlive, Function.update_of_ne hne, hsame.others f hne, rootLoaded_file_of_ne hne]
    exact ⟨hf, rfl⟩

theorem mount_two
    (hdescribes : Describes driver part (driver.load_partition part) 2)
    (hpasses : ¬ s.MountRefused driver part)
    (hne : s.takeFile.1 ≠ root) :
    ∃ s', s.mount driver part root 5 = some (0, s') ∧
      InsertsPair root s.takeFile.1 (rootLoaded driver s part root) s' := by
  obtain ⟨htype, hcount, hchild⟩ := hdescribes.only_child
  have hroot := rootLoaded_file driver s part root
  have hslot : (rootLoaded driver s part root).takeFile.1 = s.takeFile.1 := rootLoaded_slot
  obtain ⟨s', hinsert, hpair⟩ := recursiveInsert_pair driver hslot hne
    (by rw [hroot]; exact htype) (by rw [hroot]; exact hcount)
    (by rw [hroot]; exact (hchild _).childless)
  exact ⟨s', by rw [mount_loaded hpasses, hinsert]; rfl, hpair⟩

theorem loadsWhole_two
    {g : Nat}
    (hcount : (driver.files_number part).toNat = 2)
    (hroot : root ∈ s.freeFiles)
    (hslot : g ∈ s.freeFiles)
    (hne : g ≠ root)
    (hpair : InsertsPair root g (rootLoaded driver s part root) s') :
    s.LoadsWhole driver part s' := by
  have hnew : s.newFiles s' = {root, g} := by
    ext f
    rw [mem_newFiles, Finset.mem_insert, Finset.mem_singleton, hpair.live, rootLoaded_live]
    constructor
    · rintro ⟨hf, hflive⟩
      by_contra hother
      rw [not_or] at hother
      rw [Function.update_of_ne hother.2, Function.update_of_ne hother.1,
        (mem_freeFiles.mp hf).2] at hflive
      cases hflive
    · rintro (rfl | rfl)
      · exact ⟨hroot, by rw [Function.update_of_ne hne.symm, Function.update_self]⟩
      · exact ⟨hslot, Function.update_self _ _ _⟩
  refine ⟨?_, fun f hf => ?_, fun d hd htype u hu => ?_, fun f hf => ?_⟩
  · rw [hnew, hcount, Finset.card_pair hne.symm]
  · rw [hnew, Finset.mem_insert, Finset.mem_singleton] at hf
    have hpart : ((rootLoaded driver s part root).file root).data.partition = part := by
      rw [rootLoaded_file]
      rfl
    rcases hf with rfl | rfl
    · rw [hpair.data, hpart]
    · rw [hpair.partition, hpart]
  · rw [hnew, Finset.mem_insert, Finset.mem_singleton] at hd
    rcases hd with rfl | rfl
    · have hzero : u = 0 := by
        rw [hpair.count] at hu
        omega
      rw [hzero, hpair.entry]
      exact hpair.parent
    · have hnone := hpair.childless.resolve_left (not_not.mpr htype)
      omega
  · have hfroot : f ≠ root := ne_of_live hf hroot
    have hfslot : f ≠ g := ne_of_live hf hslot
    rw [hpair.live, rootLoaded_live, Function.update_of_ne hfslot, Function.update_of_ne hfroot,
      hpair.others f hfroot hfslot, rootLoaded_file_of_ne hfroot]
    exact ⟨hf, rfl⟩

theorem lockedMount_eq_some
    {m : Mounted}
    (h : s.lockedMount driver part root fuel = some m) :
    s.mount driver part root fuel = some (m.ret, m.files) ∧ m.calendar = 0 := by
  rw [FileSystem.lockedMount, Option.map_eq_some_iff] at h
  obtain ⟨⟨ret, files⟩, hmount, rfl⟩ := h
  exact ⟨hmount, rfl⟩

theorem mount_refused
    (hrefused : s.MountRefused driver part)
    (fuel : Nat) :
    s.mount driver part root fuel = some (1, s) :=
  if_pos hrefused

/-- What is loaded whole is one file or two, in free slots. -/
theorem slots_of_loadsWhole
    {ret : Int}
    (hdescribes : Describes driver part (driver.load_partition part)
      (driver.files_number part).toNat)
    (hpasses : ¬ s.MountRefused driver part)
    (h : s.mount driver part root fuel = some (ret, s'))
    (hwhole : s.LoadsWhole driver part s') :
    root ∈ s.freeFiles ∧
      ((driver.files_number part).toNat = 1 ∨
        (driver.files_number part).toNat = 2 ∧ s.takeFile.1 ∈ s.freeFiles ∧
          s.takeFile.1 ≠ root) := by
  have hsubset := newFiles_subset hpasses h
  have hfree : ∀ f, f ∈ s.newFiles s' → f ∈ s.freeFiles := fun f hf => (mem_newFiles.mp hf).1
  have hcard := hwhole.all
  have hpos := hdescribes.pos
  have hle := (Finset.card_le_card hsubset).trans Finset.card_le_two
  generalize hn : (driver.files_number part).toNat = n at hdescribes hcard hpos ⊢
  rcases Nat.lt_or_ge 1 n with htwo | hone
  · obtain rfl : n = 2 := by omega
    have hpair : s.newFiles s' = {root, s.takeFile.1} :=
      Finset.eq_of_subset_of_card_le hsubset (Finset.card_le_two.trans hcard.ge)
    have hne : s.takeFile.1 ≠ root := by
      intro heq
      rw [hpair, heq, Finset.pair_eq_singleton, Finset.card_singleton] at hcard
      omega
    exact ⟨hfree root (by simp [hpair]), Or.inr ⟨rfl, hfree _ (by simp [hpair]), hne⟩⟩
  · obtain rfl : n = 1 := by omega
    have hsame := mount_one hdescribes hpasses h
    obtain ⟨f, hsingle⟩ := Finset.card_eq_one.mp hcard
    have hf : f ∈ s.newFiles s' := by simp [hsingle]
    have hroot : f = root := by
      by_contra hne
      have hlive := (mem_newFiles.mp hf).2
      rw [hsame.live, rootLoaded_live, Function.update_of_ne hne,
        (mem_freeFiles.mp (hfree f hf)).2] at hlive
      cases hlive
    exact ⟨hroot ▸ hfree f hf, Or.inl rfl⟩

/-- A mount into free slots. -/
theorem mounts_whole
    (hdescribes : Describes driver part (driver.load_partition part)
      (driver.files_number part).toNat)
    (hpasses : ¬ s.MountRefused driver part)
    (hroot : root ∈ s.freeFiles)
    (hslots : (driver.files_number part).toNat = 1 ∨
      (driver.files_number part).toNat = 2 ∧ s.takeFile.1 ∈ s.freeFiles ∧
        s.takeFile.1 ≠ root) :
    ∃ fuel s', s.mount driver part root fuel = some (0, s') ∧ s.LoadsWhole driver part s' := by
  rcases hslots with hone | ⟨htwo, hslot, hne⟩
  · rw [hone] at hdescribes
    obtain ⟨s', hends⟩ := recursiveInsert_childless_ends driver
      (s := rootLoaded driver s part root) (d := root)
      (by rw [rootLoaded_file]; exact hdescribes.childless) 0
    have hmount : s.mount driver part root 2 = some (0, s') := by
      rw [mount_loaded hpasses, hends]
      rfl
    exact ⟨2, s', hmount,
      loadsWhole_one hone hdescribes hroot (mount_one hdescribes hpasses hmount)⟩
  · rw [htwo] at hdescribes
    obtain ⟨s', hmount, hpair⟩ := mount_two hdescribes hpasses hne
    exact ⟨5, s', hmount, loadsWhole_two htwo hroot hslot hne hpair⟩

/-- **`mount` loads a whole partition or nothing exactly when its check refuses one for which
there is no room, or there is room, and the partition has one file or two, which go to free
slots.** -/
theorem mount_whole_iff
    (hdescribes : Describes driver part (driver.load_partition part)
      (driver.files_number part).toNat) :
    s.MountRight driver part root ↔ s.MountSafe driver part root := by
  constructor
  · rintro ⟨fuel, m, hlocked, _, hnone, hall⟩
    obtain ⟨hmount, _⟩ := lockedMount_eq_some hlocked
    by_cases hrefused : s.MountRefused driver part
    · rw [mount_refused hrefused] at hmount
      refine Or.inl ⟨hrefused, ?_⟩
      by_contra hroom
      have hret := (hall (Nat.not_lt.mp hroom)).1
      have hone : (1 : Int) = m.ret := congrArg Prod.fst (Option.some.inj hmount)
      rw [← hone] at hret
      exact absurd hret (by decide)
    · have hret := (mount_loads hrefused hmount).1
      have hroom : (driver.files_number part).toNat ≤ s.freeFiles.card := by
        by_contra hfew
        rw [(hnone (Nat.not_le.mp hfew)).1] at hret
        exact absurd hret (by decide)
      exact Or.inr ⟨hrefused, hroom,
        slots_of_loadsWhole hdescribes hrefused hmount (hall hroom).2⟩
  · rintro (⟨hrefused, hfew⟩ | ⟨hpasses, hroom, hroot, hslots⟩)
    · refine ⟨0, ⟨1, s, 0⟩, ?_, rfl, fun _ => ⟨rfl, rfl⟩, fun hroom => absurd hfew (by omega)⟩
      rw [FileSystem.lockedMount, mount_refused hrefused]
      rfl
    · obtain ⟨fuel, s', hmount, hwhole⟩ := mounts_whole hdescribes hpasses hroot hslots
      refine ⟨fuel, ⟨0, s', 0⟩, ?_, rfl, fun hfew => absurd hfew (by omega),
        fun _ => ⟨rfl, hwhole⟩⟩
      rw [FileSystem.lockedMount, hmount]
      rfl

end Whole

/-- A directory with two files. -/
def threeDisk : DiskDriver where
  files_number := fun _ => 3
  load_partition := fun _ =>
    { Vfs.zeroFile 100 with
      data := ⟨fun _ => 0, DIRECTORY, 0, 0, 0, 0⟩
      children := ⟨.POINTER, 2, 2, fun _ => 0, 0, 8⟩ }
  load_file := fun _ => { Vfs.zeroFile 100 with data := ⟨fun _ => 0, STORAGE, 0, 0, 0, 0⟩ }
  getdir_entries := fun _ u => u

/-- Eight slots, none of them live. -/
def noFiles : FileSystem where
  kernel := ⟨⟨⟨.POINTER, 8, 0, fun _ => 0, 4096, 8⟩, fun _ => Vfs.zeroFile 100, 100, 256⟩,
    fun _ => nestedProcess, ⟨0, 0, 0⟩⟩
  kptr := ⟨.POINTER, 512, 0, fun _ => 0, 8192, 8⟩
  live := fun _ => false

theorem describes_threeDisk :
    Describes threeDisk 0 (threeDisk.load_partition 0) (threeDisk.files_number 0).toNat := by
  have htype : STORAGE ≠ DIRECTORY := by decide
  have hfile : ∀ u, Describes threeDisk 0 (threeDisk.load_file u) 1 := fun _ => .file htype
  exact .directory (fun u => u) (fun _ => 1) rfl (fun _ => rfl) fun u _ => hfile u

theorem mount_whole_iff_three :
    noFiles.MountRight threeDisk 0 7 ↔ noFiles.MountSafe threeDisk 0 7 :=
  mount_whole_iff describes_threeDisk

/-- **Of three files two are loaded**, although eight slots are free. -/
theorem three_files_not_mounted :
    Describes threeDisk 0 (threeDisk.load_partition 0) (threeDisk.files_number 0).toNat ∧
      ¬ noFiles.MountRight threeDisk 0 7 := by
  refine ⟨describes_threeDisk, ?_⟩
  rintro ⟨fuel, m, hlocked, _, _, hall⟩
  have hpasses : ¬ noFiles.MountRefused threeDisk 0 := by
    unfold FileSystem.MountRefused
    decide
  have hwhole := (hall (by decide)).2
  have hsubset := newFiles_subset hpasses (lockedMount_eq_some hlocked).1
  have hle := (Finset.card_le_card hsubset).trans Finset.card_le_two
  rw [hwhole.all] at hle
  exact absurd hle (by decide)

end Filesystem
end BestKernel
