import BestKernel.Filesystem.References

/-!
# Root-only files

A set bit of `mode` keeps everybody but root from reading or from writing a file.
Nine system calls on a descriptor test the bits, each in its own words.  Five of them
do what the bits say.  `SYS_RMDIR` compares a shift of the mode with the owner,
`SYS_FMAP` looks at the bit for writing only, and `SYS_EXEC` starts what it should
refuse and refuses root.  `SYS_RMFILE` and `SYS_RMDIR` also change the directory that
the file is in, which they do not test.

`permissions_enforced_iff` says for whole runs of these calls when every step does
what the bits say.

Readings of the source.  The undeclared `action` of `SYSREAD` is the permission to
read and its `errcode` a parameter; `findex` in `SYSWRITE` is the file.  Whether a
buffer is mapped, `vmtree_fetch` finds a region and `exec` makes a process of the file
are parameters of the calls.  The bytes of a file are those that the driver of the
disk moves for it.
-/

namespace BestKernel
namespace Filesystem

open Machine
open Kontrol
open Runs
open Syscalls (DescriptorCall DescriptorTable READ WRITE DIRECTORY DEVICE)

/-- What is done with the bytes of a file. -/
inductive FileAction where
  | reads
  | writes
  | syncs
  | maps
  | starts
deriving DecidableEq, Repr

/-- What a call stores in `sys_retval`, whether the test of the mode refused it, what
it does with the bytes of files, and the kernel behind it. -/
structure CallResult where
  sys_retval : Option Int
  denied : Bool
  actions : List (FileAction × Nat)
  kernel : Kernel

/-- The calls on a descriptor. -/
inductive FileCall where
  | SYSREAD (desc : Half) (amount offset : Word)
  | SYSWRITE (desc : Half) (amount offset : Word)
  | SYS_RMFILE (desc : Half)
  | SYS_RMDIR (desc : Half)
  | SYS_DISKSYNC (desc : Half)
  | SYS_STAT (desc : Half) (translated : Bool)
  | SYS_CHMETA (desc : Half) (name : Nat → Byte) (type mode : Half)
  | SYS_FMAP (desc : Half) (region : Option Nat)
  | SYS_EXEC (desc : Half) (process : Option Nat)

namespace Kernel

variable (k : Constants) (errcode : Int) (s : Kernel) (pid : Nat)

/-- The file of a descriptor. -/
def dataOf (desc : Half) : File :=
  s.vfs.descriptions (s.fileOf pid desc)

/-- `!(file->meta.mode & (READ|WRITE)) || (process->owner_id == owner_ids::ROOT)`. -/
def execDenied (desc : Half) : Bool :=
  (s.dataOf pid desc).data.mode &&& (READ ||| WRITE) = 0 ∨ (s.processes pid).owner_id = k.ROOT

/-- The two checks that a call starts with, and what it does behind them. -/
def checked (desc : Half) (guard : DescriptorCall) (badDescriptor : Int) (denied : Bool)
    (deniedValue : Option Int) (result : CallResult) : CallResult :=
  if (s.processes pid).table.refuses desc guard then ⟨some badDescriptor, false, [], s⟩
  else if denied then ⟨deniedValue, true, [], s⟩
  else result

/-- `vfs->read` and `vfs->write` reach the driver for files of this kind only. -/
def transfers (action : FileAction) (desc : Half) (offset : Word) : List (FileAction × Nat) :=
  let file := s.dataOf pid desc
  if offset > file.data.length ∨ file.data.type = DIRECTORY ∨ file.data.type = DEVICE then []
  else [(action, s.fileOf pid desc)]

/-- The transfer of `SYSREAD` and `SYSWRITE`: from the position of the descriptor,
which moves on, or from the one given. -/
def transfer (action : FileAction) (desc : Half) (amount offset : Word) : CallResult :=
  let d := s.descriptorOf pid desc
  if offset = 0 then
    ⟨some amount.toNat, false, s.transfers pid action desc d.file_offset,
      s.writeDescriptor pid (((s.processes pid).entries desc.toNat).map fun _ => desc.toNat)
        fun d => { d with file_offset := d.file_offset + amount }⟩
  else ⟨some amount.toNat, false, s.transfers pid action desc offset, s⟩

def sysread (desc : Half) (amount offset : Word) : CallResult :=
  s.checked pid desc .SYSREAD (-1) (s.modeDenied k pid READ desc) (some errcode)
    (s.transfer pid .reads desc amount offset)

def syswrite (desc : Half) (amount offset : Word) : CallResult :=
  s.checked pid desc .SYSWRITE (-1) (s.modeDenied k pid WRITE desc) none
    (s.transfer pid .writes desc amount offset)

def disksync (desc : Half) : CallResult :=
  s.checked pid desc .SYS_DISKSYNC (-1) (s.modeDenied k pid WRITE desc) (some (-2))
    ⟨some 0, false, [(.syncs, s.fileOf pid desc)], s⟩

def stat (desc : Half) (translated : Bool) : CallResult :=
  s.checked pid desc .SYS_STAT 1 (s.modeDenied k pid WRITE desc) (some 2)
    ⟨some (if translated then 0 else 2), false, [], s⟩

def chmeta (desc : Half) (name : Nat → Byte) (type mode : Half) : CallResult :=
  s.checked pid desc .SYS_CHMETA 1 (s.modeDenied k pid WRITE desc) (some 2)
    ⟨some 0, false, [], { s with
      vfs := { s.vfs with
        descriptions := Function.update s.vfs.descriptions (s.fileOf pid desc)
          { s.dataOf pid desc with
            data := { (s.dataOf pid desc).data with name := name, type := type, mode := mode } } } }⟩

/-- The guard on the size of the descriptor comes first and has a value of its own. -/
def sysFmap (desc : Half) (region : Option Nat) : CallResult :=
  if desc > 1#32 <<< 14 then ⟨some (-3), false, [], s⟩
  else
    s.checked pid desc .SYS_FMAP (-1) (s.modeDenied k pid WRITE desc) (some (-2))
      ⟨some ((region.getD 0 : Nat) : Int), false,
        if region.isSome then [(.maps, s.fileOf pid desc)] else [], s⟩

def sysExec (desc : Half) (process : Option Nat) : CallResult :=
  s.checked pid desc .SYS_EXEC 1 (s.execDenied k pid desc) (some 1)
    ⟨some (process.elim (-1) fun i => (i : Int)), false,
      if process.isSome then [(.starts, s.fileOf pid desc)] else [], s⟩

/-- A removal, whose test of the mode has the value 2. -/
def removal (result : Int × Kernel) : CallResult :=
  ⟨some result.1, result.1 = 2, [], result.2⟩

/-- A call on a descriptor. -/
def call : FileCall → CallResult
  | .SYSREAD desc amount offset => s.sysread k errcode pid desc amount offset
  | .SYSWRITE desc amount offset => s.syswrite k pid desc amount offset
  | .SYS_RMFILE desc => removal (s.rmfile k pid desc)
  | .SYS_RMDIR desc => removal (s.rmdir pid desc)
  | .SYS_DISKSYNC desc => s.disksync k pid desc
  | .SYS_STAT desc translated => s.stat k pid desc translated
  | .SYS_CHMETA desc name type mode => s.chmeta k pid desc name type mode
  | .SYS_FMAP desc region => s.sysFmap k pid desc region
  | .SYS_EXEC desc process => s.sysExec k pid desc process

end Kernel

/-- A bit of the mode of a file in the pool is set. -/
def Protected (s : Kernel) (permission : Half) (f : Nat) : Prop :=
  f < s.vfs.pool.length.toNat ∧ (s.vfs.descriptions f).data.mode &&& permission ≠ 0

/-- A call changes nothing about a file and makes no mapping of it. -/
structure Untouched (s : Kernel) (r : CallResult) (f : Nat) : Prop where
  file : r.kernel.vfs.descriptions f = s.vfs.descriptions f
  mark : r.kernel.vfs.pool.ckarray f = s.vfs.pool.ckarray f
  writes : (FileAction.writes, f) ∉ r.actions
  syncs : (FileAction.syncs, f) ∉ r.actions
  maps : (FileAction.maps, f) ∉ r.actions

/-- A call hands out no byte of a file, through a mapping or otherwise, and starts no
program from it. -/
structure Unread (r : CallResult) (f : Nat) : Prop where
  reads : (FileAction.reads, f) ∉ r.actions
  maps : (FileAction.maps, f) ∉ r.actions
  starts : (FileAction.starts, f) ∉ r.actions

/-- A call does what the bits of the modes say. -/
structure Honours (k : Constants) (s : Kernel) (pid : Nat) (r : CallResult) : Prop where
  write : (s.processes pid).owner_id ≠ k.ROOT → ∀ f, Protected s WRITE f → Untouched s r f
  read : (s.processes pid).owner_id ≠ k.ROOT → ∀ f, Protected s READ f → Unread r f
  root : (s.processes pid).owner_id = k.ROOT → r.denied = false

/-- A call of a process. -/
structure PermissionOp where
  pid : Nat
  call : FileCall

def PermissionStep (k : Constants) (errcode : Int) (s : Kernel) (op : PermissionOp)
    (s' : Kernel) : Prop :=
  s' = (s.call k errcode op.pid op.call).kernel

/-- A removal that takes nothing from a file that only root may write: neither the
file nor its directory is one, nor the file 0, if its mark goes with the file. -/
structure RemovalSafe (s : Kernel) (file : Nat) : Prop where
  removed : ¬ Protected s WRITE file
  directory : ¬ Protected s WRITE (s.vfs.descriptions file).parent
  first : s.vfs.pool.slotOf (s.vfs.fileAddress (some file)) = 0 →
    Protected s WRITE 0 → s.vfs.pool.ckarray 0 = 0

/-- When a call does what the bits say. -/
def PermissionSafe (k : Constants) (s : Kernel) (op : PermissionOp) : Prop :=
  let p := s.processes op.pid
  match op.call with
  | .SYS_RMFILE desc =>
      p.owner_id ≠ k.ROOT → p.table.refuses desc .SYS_RMFILE = false →
        s.modeDenied k op.pid WRITE desc = false → RemovalSafe s (s.fileOf op.pid desc)
  | .SYS_RMDIR desc =>
      (p.owner_id ≠ k.ROOT → p.table.refuses desc .SYS_RMDIR = false →
        s.rmdirDenied op.pid desc = false → (s.dataOf op.pid desc).children.count = 0 →
          RemovalSafe s (s.fileOf op.pid desc)) ∧
      (p.owner_id = k.ROOT → p.table.refuses desc .SYS_RMDIR = false →
        s.rmdirDenied op.pid desc = false)
  | .SYS_FMAP desc region =>
      p.owner_id ≠ k.ROOT → p.table.refuses desc .SYS_FMAP = false →
        s.modeDenied k op.pid WRITE desc = false → region.isSome →
          ¬ Protected s READ (s.fileOf op.pid desc)
  | .SYS_EXEC desc process =>
      (p.owner_id ≠ k.ROOT → p.table.refuses desc .SYS_EXEC = false → process.isSome →
        ¬ Protected s READ (s.fileOf op.pid desc)) ∧
      (p.owner_id = k.ROOT → p.table.refuses desc .SYS_EXEC = true)
  | _ => True

section Checks

variable {k : Constants} {errcode : Int} {s : Kernel} {pid : Nat} {desc : Half}
  {guard : DescriptorCall} {badDescriptor : Int} {denied : Bool} {deniedValue : Option Int}
  {result : CallResult}

/-- A call that does nothing. -/
theorem honours_idle
    {sys_retval : Option Int} {denied : Bool}
    (hroot : (s.processes pid).owner_id = k.ROOT → denied = false) :
    Honours k s pid ⟨sys_retval, denied, [], s⟩ where
  write _ _ _ := ⟨rfl, rfl, List.not_mem_nil, List.not_mem_nil, List.not_mem_nil⟩
  read _ _ _ := ⟨List.not_mem_nil, List.not_mem_nil, List.not_mem_nil⟩
  root := hroot

/-- What is behind the two checks. -/
theorem honours_checked
    (hroot : (s.processes pid).owner_id = k.ROOT → denied = false)
    (hresult : (s.processes pid).table.refuses desc guard = false → denied = false →
      Honours k s pid result) :
    Honours k s pid (s.checked pid desc guard badDescriptor denied deniedValue result) := by
  unfold Kernel.checked
  split_ifs with hguard hdenied
  · exact honours_idle fun _ => rfl
  · exact honours_idle fun h => absurd (hroot h) (by simp [hdenied])
  · exact hresult (by simpa using hguard) (by simpa using hdenied)

/-- The test of a bit never refuses root. -/
theorem modeDenied_of_root
    (permission : Half)
    (hroot : (s.processes pid).owner_id = k.ROOT) :
    s.modeDenied k pid permission desc = false := by
  simp [Kernel.modeDenied, hroot]

/-- What it lets through for another owner is not protected. -/
theorem not_protected_of_passed
    {permission : Half}
    (howner : (s.processes pid).owner_id ≠ k.ROOT)
    (hpassed : s.modeDenied k pid permission desc = false) :
    ¬ Protected s permission (s.fileOf pid desc) := by
  rintro ⟨_, hbit⟩
  simp only [Kernel.modeDenied, decide_eq_false_iff_not, not_and, not_not] at hpassed
  exact howner (hpassed hbit)

/-- A transfer is of the file of the descriptor, and the files stay as they are. -/
theorem transfer_spec
    (action : FileAction) (desc : Half) (amount offset : Word) :
    (s.transfer pid action desc amount offset).kernel.vfs = s.vfs ∧
      (s.transfer pid action desc amount offset).denied = false ∧
      ∀ x, x ∈ (s.transfer pid action desc amount offset).actions →
        x = (action, s.fileOf pid desc) := by
  have htransfers : ∀ position x, x ∈ s.transfers pid action desc position →
      x = (action, s.fileOf pid desc) := by
    intro position x hx
    unfold Kernel.transfers at hx
    dsimp only at hx
    split_ifs at hx
    · cases hx
    · exact List.mem_singleton.mp hx
  unfold Kernel.transfer
  dsimp only
  split_ifs
  · exact ⟨writeDescriptor_vfs, rfl, htransfers _⟩
  · exact ⟨rfl, rfl, htransfers _⟩

/-- A call that does one thing with the bytes of one file, and that the bits allow. -/
theorem honours_of_action
    (action : FileAction) {file : Nat}
    (hvfs : result.kernel.vfs = s.vfs)
    (hdenied : result.denied = false)
    (hactions : ∀ x, x ∈ result.actions → x = (action, file))
    (hwrite : (s.processes pid).owner_id ≠ k.ROOT →
      action = .writes ∨ action = .syncs ∨ action = .maps → ¬ Protected s WRITE file)
    (hread : (s.processes pid).owner_id ≠ k.ROOT →
      action = .reads ∨ action = .maps ∨ action = .starts → ¬ Protected s READ file) :
    Honours k s pid result where
  write howner f hf := by
    have hnot : ∀ a, a = .writes ∨ a = .syncs ∨ a = .maps → (a, f) ∉ result.actions := by
      intro a ha hmem
      obtain ⟨rfl, rfl⟩ := Prod.ext_iff.mp (hactions _ hmem)
      exact hwrite howner ha hf
    exact ⟨by rw [hvfs], by rw [hvfs], hnot _ (by simp), hnot _ (by simp), hnot _ (by simp)⟩
  read howner f hf := by
    have hnot : ∀ a, a = .reads ∨ a = .maps ∨ a = .starts → (a, f) ∉ result.actions := by
      intro a ha hmem
      obtain ⟨rfl, rfl⟩ := Prod.ext_iff.mp (hactions _ hmem)
      exact hread howner ha hf
    exact ⟨hnot _ (by simp), hnot _ (by simp), hnot _ (by simp)⟩
  root _ := hdenied

theorem sysread_honours
    (desc : Half) (amount offset : Word) :
    Honours k s pid (s.sysread k errcode pid desc amount offset) := by
  refine honours_checked (modeDenied_of_root READ) fun _ hpassed => ?_
  obtain ⟨hvfs, hdenied, hactions⟩ :=
    transfer_spec (s := s) .reads desc amount offset
  refine honours_of_action _ hvfs hdenied hactions ?_ ?_
  · rintro _ (h | h | h) <;> cases h
  · intro howner _
    exact not_protected_of_passed howner hpassed

theorem syswrite_honours
    (desc : Half) (amount offset : Word) :
    Honours k s pid (s.syswrite k pid desc amount offset) := by
  refine honours_checked (modeDenied_of_root WRITE) fun _ hpassed => ?_
  obtain ⟨hvfs, hdenied, hactions⟩ :=
    transfer_spec (s := s) .writes desc amount offset
  refine honours_of_action _ hvfs hdenied hactions ?_ ?_
  · intro howner _
    exact not_protected_of_passed howner hpassed
  · rintro _ (h | h | h) <;> cases h

theorem disksync_honours
    (desc : Half) :
    Honours k s pid (s.disksync k pid desc) := by
  refine honours_checked (modeDenied_of_root WRITE) fun _ hpassed => ?_
  refine honours_of_action .syncs rfl rfl (fun x hx => List.mem_singleton.mp hx) ?_ ?_
  · intro howner _
    exact not_protected_of_passed howner hpassed
  · rintro _ (h | h | h) <;> cases h

theorem stat_honours
    (desc : Half) (translated : Bool) :
    Honours k s pid (s.stat k pid desc translated) :=
  honours_checked (modeDenied_of_root WRITE) fun _ _ => honours_idle fun _ => rfl

/-- The file that `SYS_CHMETA` changes is not protected. -/
theorem chmeta_honours
    (desc : Half) (name : Nat → Byte) (type mode : Half) :
    Honours k s pid (s.chmeta k pid desc name type mode) := by
  refine honours_checked (modeDenied_of_root WRITE) fun _ hpassed => ?_
  refine ⟨fun howner f hf => ⟨?_, rfl, List.not_mem_nil, List.not_mem_nil, List.not_mem_nil⟩,
    fun _ _ _ => ⟨List.not_mem_nil, List.not_mem_nil, List.not_mem_nil⟩, fun _ => rfl⟩
  have hne : f ≠ s.fileOf pid desc := by
    rintro rfl
    exact not_protected_of_passed howner hpassed hf
  exact Function.update_of_ne hne _ _

/-- What is behind the two checks, exactly. -/
theorem honours_checked_iff
    (hroot : (s.processes pid).owner_id = k.ROOT → denied = false) :
    Honours k s pid (s.checked pid desc guard badDescriptor denied deniedValue result) ↔
      ((s.processes pid).table.refuses desc guard = false → denied = false →
        Honours k s pid result) := by
  refine ⟨fun h hguard hpassed => ?_, honours_checked hroot⟩
  rw [Kernel.checked, hguard, hpassed] at h
  simpa using h

theorem fmap_honours_iff
    (desc : Half) (region : Option Nat) :
    Honours k s pid (s.sysFmap k pid desc region) ↔
      PermissionSafe k s ⟨pid, .SYS_FMAP desc region⟩ := by
  unfold Kernel.sysFmap PermissionSafe
  dsimp only
  by_cases hlarge : desc > 1#32 <<< 14
  · -- both guards are in the condition, and the first one refuses
    have hrefused : (s.processes pid).table.refuses desc .SYS_FMAP = true :=
      decide_eq_true (Or.inl hlarge)
    rw [if_pos hlarge, hrefused]
    exact iff_of_true (honours_idle fun _ => rfl) fun _ h => by cases h
  · rw [if_neg hlarge, honours_checked_iff (modeDenied_of_root WRITE)]
    constructor
    · intro h howner hguard hpassed hregion hprotected
      have hmapped := ((h hguard hpassed).read howner _ hprotected).maps
      rw [if_pos hregion] at hmapped
      exact hmapped (List.mem_singleton.mpr rfl)
    · intro h hguard hpassed
      cases region with
      | none => exact honours_idle fun _ => rfl
      | some g =>
          refine honours_of_action .maps rfl rfl (fun x hx => List.mem_singleton.mp hx) ?_ ?_
          · intro howner _
            exact not_protected_of_passed howner hpassed
          · intro howner _
            exact h howner hguard hpassed rfl

/-- What `SYS_EXEC` refuses to an owner other than root has no bit set. -/
theorem not_protected_of_execDenied
    (howner : (s.processes pid).owner_id ≠ k.ROOT)
    (hdenied : s.execDenied k pid desc = true) :
    ¬ Protected s READ (s.fileOf pid desc) := by
  rintro ⟨_, hbit⟩
  simp only [Kernel.execDenied, decide_eq_true_eq, howner, or_false] at hdenied
  have hread : READ = (READ ||| WRITE) &&& READ := by decide
  apply hbit
  rw [hread, ← BitVec.and_assoc]
  exact (congrArg (· &&& READ) hdenied).trans (by simp)

theorem exec_honours_iff
    (desc : Half) (process : Option Nat) :
    Honours k s pid (s.sysExec k pid desc process) ↔
      PermissionSafe k s ⟨pid, .SYS_EXEC desc process⟩ := by
  unfold Kernel.sysExec PermissionSafe
  dsimp only
  cases hguard : (s.processes pid).table.refuses desc .SYS_EXEC with
  | true =>
      rw [Kernel.checked, if_pos hguard]
      exact iff_of_true (honours_idle fun _ => rfl) ⟨fun _ h => (by cases h), fun _ => rfl⟩
  | false =>
      by_cases howner : (s.processes pid).owner_id = k.ROOT
      · -- root is refused whatever the mode
        have hdenied : s.execDenied k pid desc = true := by simp [Kernel.execDenied, howner]
        rw [Kernel.checked, if_neg (by simp [hguard]), if_pos hdenied]
        refine iff_of_false (fun h => ?_) fun h => ?_
        · cases h.root howner
        · cases h.2 howner
      · cases hdenied : s.execDenied k pid desc with
        | true =>
            rw [Kernel.checked, if_neg (by simp [hguard]), if_pos rfl]
            refine iff_of_true (honours_idle fun h => absurd h howner)
              ⟨fun _ _ _ => not_protected_of_execDenied howner hdenied, fun h => absurd h howner⟩
        | false =>
            rw [Kernel.checked, if_neg (by simp [hguard]), if_neg (by simp)]
            constructor
            · intro h
              refine ⟨fun _ _ hprocess hprotected => ?_, fun h => absurd h howner⟩
              have hstarted := (h.read howner _ hprotected).starts
              simp [hprocess] at hstarted
            · intro h
              cases process with
              | none => exact honours_idle fun _ => rfl
              | some i =>
                  refine honours_of_action .starts rfl rfl
                    (fun x hx => List.mem_singleton.mp hx) ?_ ?_
                  · rintro _ (h | h | h) <;> cases h
                  · intro _ _
                    exact h.1 howner rfl rfl

/-- A removal changes a file that is not removed only as the directory of the one
that is. -/
theorem remove_descriptions
    {file f : Nat}
    (hfile : f ≠ file)
    (hparent : f ≠ (s.vfs.descriptions file).parent) :
    (s.remove file).vfs.descriptions f = s.vfs.descriptions f := by
  unfold Kernel.remove Vfs.freeFile Vfs.unlink
  dsimp only
  rw [Function.update_of_ne hfile, Function.update_of_ne hparent]

theorem remove_file
    (file : Nat) :
    (s.remove file).vfs.descriptions file = Vfs.zeroFile s.vfs.null :=
  Function.update_self _ _ _

/-- The directory has one child less, even where it had none. -/
theorem remove_parent_count
    {file : Nat}
    (hne : (s.vfs.descriptions file).parent ≠ file) :
    ((s.remove file).vfs.descriptions (s.vfs.descriptions file).parent).children.count =
      (s.vfs.descriptions (s.vfs.descriptions file).parent).children.count - 1 := by
  unfold Kernel.remove Vfs.freeFile Vfs.unlink
  dsimp only
  rw [Function.update_of_ne hne, Function.update_self]
  rfl

theorem remove_ckarray
    (file f : Nat) :
    (s.remove file).vfs.pool.ckarray f =
      if s.vfs.pool.slotOf (s.vfs.fileAddress (some file)) ≤ f ∧ f < 1 then 0
      else s.vfs.pool.ckarray f :=
  released_ckarray f

theorem sub_one_ne (n : Half) : n - 1 ≠ n := by
  bv_omega

/-- When a removal leaves the files alone that only root may write. -/
theorem remove_untouched_iff
    (file : Nat) :
    (∀ f, Protected s WRITE f → Untouched s (Kernel.removal (0, s.remove file)) f) ↔
      RemovalSafe s file := by
  constructor
  · intro h
    have hfile : ¬ Protected s WRITE file := by
      intro hprotected
      -- the mode of the file is cleared with the rest of it
      have hzero := (remove_file file).symm.trans (h file hprotected).file
      have hmode := congrArg (fun x : File => x.data.mode) hzero
      have hclear : (Vfs.zeroFile s.vfs.null).data.mode &&& WRITE = 0 :=
        (by decide : (0 : Half) &&& WRITE = 0)
      exact hprotected.2 (hmode ▸ hclear)
    refine ⟨hfile, fun hprotected => ?_, fun hslot hprotected => ?_⟩
    · have hne : (s.vfs.descriptions file).parent ≠ file := by
        intro heq
        exact hfile (heq ▸ hprotected)
      have hcount := congrArg (fun x : File => x.children.count) (h _ hprotected).file
      exact sub_one_ne _ ((remove_parent_count hne).symm.trans hcount)
    · have hmark := (remove_ckarray file 0).symm.trans (h 0 hprotected).mark
      rw [if_pos ⟨Nat.le_of_eq hslot, Nat.zero_lt_one⟩] at hmark
      exact hmark.symm
  · intro h f hprotected
    refine ⟨remove_descriptions ?_ ?_, ?_, List.not_mem_nil, List.not_mem_nil,
      List.not_mem_nil⟩
    · rintro rfl
      exact h.removed hprotected
    · rintro rfl
      exact h.directory hprotected
    · refine (remove_ckarray file f).trans ?_
      split_ifs with hslot
      · obtain rfl : f = 0 := by omega
        exact (h.first (Nat.le_zero.mp hslot.1) hprotected).symm
      · rfl

/-- A removal that is done reads no byte and refuses nobody. -/
theorem removal_honours_iff
    (file : Nat) :
    Honours k s pid (Kernel.removal (0, s.remove file)) ↔
      ((s.processes pid).owner_id ≠ k.ROOT → RemovalSafe s file) := by
  constructor
  · intro h howner
    exact (remove_untouched_iff file).mp (h.write howner)
  · intro h
    exact ⟨fun howner => (remove_untouched_iff file).mpr (h howner),
      fun _ _ _ => ⟨List.not_mem_nil, List.not_mem_nil, List.not_mem_nil⟩, fun _ => rfl⟩

theorem rmfile_honours_iff
    (desc : Half) :
    Honours k s pid (Kernel.removal (s.rmfile k pid desc)) ↔
      PermissionSafe k s ⟨pid, .SYS_RMFILE desc⟩ := by
  unfold Kernel.rmfile PermissionSafe
  dsimp only
  cases hguard : (s.processes pid).table.refuses desc .SYS_RMFILE with
  | true =>
      rw [if_pos rfl]
      exact iff_of_true (honours_idle fun _ => rfl) fun _ h => by cases h
  | false =>
      rw [if_neg Bool.false_ne_true]
      cases hdenied : s.modeDenied k pid WRITE desc with
      | true =>
          have howner : (s.processes pid).owner_id ≠ k.ROOT := fun hroot =>
            Bool.false_ne_true ((modeDenied_of_root WRITE hroot).symm.trans hdenied)
          rw [if_pos rfl]
          exact iff_of_true (honours_idle fun h => absurd h howner) fun _ _ h => by cases h
      | false =>
          rw [if_neg Bool.false_ne_true, removal_honours_iff]
          exact ⟨fun h howner _ _ => h howner, fun h howner => h howner rfl rfl⟩

theorem rmdir_honours_iff
    (desc : Half) :
    Honours k s pid (Kernel.removal (s.rmdir pid desc)) ↔
      PermissionSafe k s ⟨pid, .SYS_RMDIR desc⟩ := by
  unfold Kernel.rmdir PermissionSafe
  dsimp only
  cases hguard : (s.processes pid).table.refuses desc .SYS_RMDIR with
  | true =>
      rw [if_pos rfl]
      exact iff_of_true (honours_idle fun _ => rfl)
        ⟨fun _ h => (by cases h), fun _ h => by cases h⟩
  | false =>
      rw [if_neg Bool.false_ne_true]
      cases hdenied : s.rmdirDenied pid desc with
      | true =>
          -- the shift test refuses whom it should not exactly where that is root
          rw [if_pos rfl]
          constructor
          · intro h
            exact ⟨fun _ _ hpassed => (by cases hpassed), fun hroot _ => h.root hroot⟩
          · intro h
            exact honours_idle fun hroot => h.2 hroot rfl
      | false =>
          rw [if_neg Bool.false_ne_true]
          change Honours k s pid (Kernel.removal
            (if (s.dataOf pid desc).children.count ≠ 0 then (3, s)
              else (0, s.remove (s.fileOf pid desc)))) ↔ _
          by_cases hcount : (s.dataOf pid desc).children.count = 0
          · rw [if_neg (not_not.mpr hcount), removal_honours_iff]
            exact ⟨fun h => ⟨fun howner _ _ _ => h howner, fun _ _ => rfl⟩,
              fun h howner => h.1 howner rfl rfl hcount⟩
          · rw [if_pos hcount]
            exact iff_of_true (honours_idle fun _ => rfl)
              ⟨fun _ _ _ h => absurd h hcount, fun _ _ => rfl⟩

/-- When one call does what the bits say. -/
theorem call_honours_iff
    (call : FileCall) :
    Honours k s pid (s.call k errcode pid call) ↔ PermissionSafe k s ⟨pid, call⟩ := by
  cases call with
  | SYSREAD desc amount offset =>
      exact iff_of_true (sysread_honours desc amount offset) trivial
  | SYSWRITE desc amount offset =>
      exact iff_of_true (syswrite_honours desc amount offset) trivial
  | SYS_RMFILE desc => exact rmfile_honours_iff desc
  | SYS_RMDIR desc => exact rmdir_honours_iff desc
  | SYS_DISKSYNC desc => exact iff_of_true (disksync_honours desc) trivial
  | SYS_STAT desc translated => exact iff_of_true (stat_honours desc translated) trivial
  | SYS_CHMETA desc name type mode =>
      exact iff_of_true (chmeta_honours desc name type mode) trivial
  | SYS_FMAP desc region => exact fmap_honours_iff desc region
  | SYS_EXEC desc process => exact exec_honours_iff desc process

/-- No call makes the pool of files longer or shorter. -/
theorem call_pool_length
    (call : FileCall) :
    (s.call k errcode pid call).kernel.vfs.pool.length = s.vfs.pool.length := by
  have hchecked : ∀ {desc guard badDescriptor denied deniedValue result},
      result.kernel.vfs.pool.length = s.vfs.pool.length →
      (s.checked pid desc guard badDescriptor denied deniedValue result).kernel.vfs.pool.length =
        s.vfs.pool.length := by
    intro desc guard badDescriptor denied deniedValue result hresult
    unfold Kernel.checked
    split_ifs <;> first | rfl | exact hresult
  cases call with
  | SYSREAD desc amount offset =>
      exact hchecked (congrArg (fun v : Vfs => v.pool.length)
        (transfer_spec .reads desc amount offset).1)
  | SYSWRITE desc amount offset =>
      exact hchecked (congrArg (fun v : Vfs => v.pool.length)
        (transfer_spec .writes desc amount offset).1)
  | SYS_RMFILE desc =>
      change (s.rmfile k pid desc).2.vfs.pool.length = _
      unfold Kernel.rmfile
      split_ifs <;> rfl
  | SYS_RMDIR desc =>
      change (s.rmdir pid desc).2.vfs.pool.length = _
      unfold Kernel.rmdir
      split_ifs <;> rfl
  | SYS_DISKSYNC desc => exact hchecked rfl
  | SYS_STAT desc translated => exact hchecked rfl
  | SYS_CHMETA desc name type mode => exact hchecked rfl
  | SYS_FMAP desc region =>
      change (s.sysFmap k pid desc region).kernel.vfs.pool.length = _
      unfold Kernel.sysFmap
      by_cases hlarge : desc > 1#32 <<< 14
      · rw [if_pos hlarge]
      · rw [if_neg hlarge]
        exact hchecked rfl
  | SYS_EXEC desc process => exact hchecked rfl

end Checks

/-- Every call of a run does what the bits of the modes say at its time. -/
def PermissionsEnforced (k : Constants) (errcode : Int) :
    Kernel → List (PermissionOp × Kernel) → Prop :=
  EveryStep fun s op _ => Honours k s op.pid (s.call k errcode op.pid op.call)

section Runs

variable {k : Constants} {errcode : Int} {s : Kernel} {run : List (PermissionOp × Kernel)}

/-- Over a run of processes that are not root, a file that only root may write stays
as it is. -/
theorem protected_stays
    (hrun : Run (PermissionStep k errcode) s run)
    (henforced : PermissionsEnforced k errcode s run)
    (howner : StepsMeet (fun s op => (s.processes op.pid).owner_id ≠ k.ROOT) s run)
    {f : Nat}
    (hprotected : Protected s WRITE f) :
    Always (fun s' => s'.vfs.descriptions f = s.vfs.descriptions f ∧
      s'.vfs.pool.ckarray f = s.vfs.pool.ckarray f) s run := by
  induction hrun with
  | nil s => simp
  | @cons s s' op rest hstep hrest ih =>
      obtain ⟨hhonours, henforced'⟩ := henforced
      obtain ⟨hother, howner'⟩ := howner
      obtain rfl := hstep
      have huntouched := hhonours.write hother f hprotected
      have hprotected' : Protected (s.call k errcode op.pid op.call).kernel WRITE f := by
        refine ⟨?_, ?_⟩
        · rw [call_pool_length]
          exact hprotected.1
        · rw [huntouched.file]
          exact hprotected.2
      have hrest' := ih henforced' howner' hprotected'
      rw [huntouched.file, huntouched.mark] at hrest'
      exact (always_cons _ _ _ _ _).mpr ⟨⟨rfl, rfl⟩, hrest'⟩

/--
**Every call of a run does what the bits say exactly when each of its removals,
mappings and starts is one that they allow.**
-/
theorem permissions_enforced_iff
    (hrun : Run (PermissionStep k errcode) s run) :
    PermissionsEnforced k errcode s run ↔ StepsMeet (PermissionSafe k) s run :=
  everyStep_iff_stepsMeet (I := fun _ => True) (fun _ _ _ _ _ => trivial)
    (fun _ op _ _ _ => call_honours_iff op.call) hrun trivial

end Runs

/-- The files above, for root only, with two descriptors that refer to the file 2. -/
def lockedKernel : Kernel where
  vfs := { nestedFiles with
    descriptions := fun i =>
      let file := nestedFiles.descriptions i
      { file with data := { file.data with mode := READ ||| WRITE } } }
  processes := fun _ =>
    { nestedProcess with
      table := { nestedProcess.table with process_ckarray := fun _ => 255 }
      entries := fun i => if i < 2 then some ⟨2, 0, 0⟩ else none }
  null := ⟨0, 0, 0⟩

/-- One call. -/
def oneCall (op : PermissionOp) : List (PermissionOp × Kernel) :=
  [(op, (lockedKernel.call rootZero (-1) op.pid op.call).kernel)]

/-- Another owner removes the directory 2 by `SYS_RMDIR`. -/
theorem permissions_enforced_iff_rmdir :
    PermissionsEnforced rootZero (-1) lockedKernel (oneCall ⟨0, .SYS_RMDIR 0⟩) ↔
      StepsMeet (PermissionSafe rootZero) lockedKernel (oneCall ⟨0, .SYS_RMDIR 0⟩) :=
  permissions_enforced_iff (Run.cons rfl (Run.nil _))

/-- Another owner removes a directory that only root may write, and starts a program
that only root may read; where the owner is root, `SYS_EXEC` refuses it. -/
theorem locked_not_enforced :
    ¬ PermissionsEnforced rootZero (-1) lockedKernel (oneCall ⟨0, .SYS_RMDIR 0⟩) ∧
      ¬ PermissionsEnforced rootZero (-1) lockedKernel (oneCall ⟨0, .SYS_EXEC 0 (some 1)⟩) ∧
      ¬ Honours ⟨1, 0, 0⟩ lockedKernel 0
          (lockedKernel.call ⟨1, 0, 0⟩ (-1) 0 (.SYS_EXEC 0 (some 1))) := by
  have howner : (lockedKernel.processes 0).owner_id ≠ rootZero.ROOT := by decide
  refine ⟨fun h => ?_, fun h => ?_, fun h => ?_⟩
  · have hfile := (h.1.write howner 2 ⟨by decide, by decide⟩).file
    have hmode := congrArg (fun x : File => x.data.mode) hfile
    exact absurd hmode (by decide)
  · have hstarts := (h.1.read howner 2 ⟨by decide, by decide⟩).starts
    exact absurd hstarts (by decide)
  · exact absurd (h.root rfl) (by decide)

end Filesystem
end BestKernel
