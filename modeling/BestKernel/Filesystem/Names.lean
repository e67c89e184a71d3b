import BestKernel.Filesystem.References
import Mathlib.Data.Nat.Find

/-!
# The names of files

`SYS_CHMETA` copies 64 bytes from the caller into the name of a file, `template_constructor`
copies a string of whatever length, and so does `SYSOPEN` for a file that it creates, which
it never does (`sysopen_vfs`).  `recurse_directories` compares a path with a name up to the
zero that ends either, without looking at the size of the name.

Every live name has its zero exactly as long as what is copied has one in its first 64 bytes
(`names_terminated_iff`).

Readings of the source.  A file is live from its construction or creation on, as in a mount;
the marks of the pool do not tell, as nothing sets them.  The files are the bytes of their
pool, by the offset from its start, counted on beyond the pool.  The string functions are those
of the standard library: `strcpy` and `string_copy` write up to the first zero, and everything
behind the name for a string that has none.  The bytes that `SYS_CHMETA` copies are those
behind the translated pointer.
-/

namespace BestKernel
namespace Filesystem

open Machine
open Kontrol
open Syscalls (Meta byteOf sizeofMeta sizeofName)

/-- Where the fields of a `File` lie, its size, and the file that its bytes stand for. -/
structure FileLayout where
  data : Nat
  parent : Nat
  size : Nat
  decode : (Nat → Byte) → File
  data_fits : data + sizeofMeta ≤ parent
  parent_fits : parent + 8 ≤ size
  aligned : 8 ∣ size
  decode_name : ∀ image k, k < sizeofName → (decode image).data.name k = image (data + k)

/-- The pool of files with its bytes, which files are live, and the processes. -/
structure FileMemory where
  pool : Hash
  bytes : Nat → Byte
  live : Nat → Bool
  nullFile : Nat
  processes : Nat → Process
  null : Descriptor

section Bytes

/-- `n` bytes stored from an offset on. -/
def putBytes (bytes : Nat → Byte) (start n : Nat) (value : Nat → Byte) : Nat → Byte :=
  fun m => if start ≤ m ∧ m < start + n then value (m - start) else bytes m

/-- A string stored from an offset on, with the zero that ends it. -/
def strcpyAt (bytes : Nat → Byte) (start : Nat) (text : Nat → Byte) : Nat → Byte :=
  fun m =>
    if start ≤ m ∧ ∀ j, j < m - start → text j ≠ 0 then text (m - start) else bytes m

/-- The number in the four bytes from an offset on. -/
def halfAt (bytes : Nat → Byte) (start : Nat) : Half :=
  bytes (start + 3) ++ bytes (start + 2) ++ bytes (start + 1) ++ bytes start

end Bytes

namespace FileLayout

variable (layout : FileLayout)

/-- `&file->meta.name`, `&file->meta.type` and `&file->meta.mode`. -/
def nameOffset (file : Nat) : Nat := file * layout.size + layout.data

def typeOffset (file : Nat) : Nat := layout.nameOffset file + 64

def modeOffset (file : Nat) : Nat := layout.nameOffset file + 68

def parentOffset (file : Nat) : Nat := file * layout.size + layout.parent

/-- The bytes of a name. -/
def InName (file n : Nat) : Prop :=
  layout.nameOffset file ≤ n ∧ n < layout.nameOffset file + sizeofName

end FileLayout

namespace FileMemory

section Calls

variable (layout : FileLayout) (k : Constants) (s : FileMemory)

/-- The files as `open` finds them. -/
def kernel : Kernel where
  vfs :=
    ⟨s.pool, fun file => layout.decode fun i => s.bytes (file * layout.size + i), s.nullFile,
      layout.size⟩
  processes := s.processes
  null := s.null

/-- The file that `SYSOPEN` creates, before the copy of its name. -/
def blankFile (file : Nat) (data : Meta) : Nat → Byte :=
  putBytes (putBytes s.bytes (file * layout.size) layout.size fun _ => 0)
    (layout.nameOffset file) sizeofMeta { data with name := fun _ => 0 }.byte

/-- `SYSOPEN`, from what it comes to. -/
def afterOpen (r : OpenResult) : FileMemory where
  pool := r.kernel.vfs.pool
  bytes :=
    match r.created with
    | none => s.bytes
    | some file =>
        let data := (r.kernel.vfs.descriptions file).data
        strcpyAt (s.blankFile layout file data) (layout.nameOffset file) data.name
  live := r.created.elim s.live fun file => Function.update s.live file true
  nullFile := r.kernel.vfs.null
  processes := r.kernel.processes
  null := r.kernel.null

/-- `process->descs->pool[desc]->findex`. -/
def fileOf (pid : Nat) (desc : Half) : Nat :=
  (((s.processes pid).entries desc.toNat).getD s.null).findex.toNat

/-- The two checks of `SYS_CHMETA`. -/
def chmetaRefuses (pid : Nat) (desc : Half) : Option Int :=
  let p := s.processes pid
  if p.table.refuses desc .SYS_CHMETA then some 1
  else if halfAt s.bytes (layout.modeOffset (s.fileOf pid desc)) &&& Syscalls.WRITE ≠ 0 ∧
      p.owner_id ≠ k.ROOT then some 2
  else none

/-- `memcpy(&file->meta.name,truename,sizeof(File.meta.name))`. -/
def copyMeta (file : Nat) (text : Nat → Byte) : Nat → Byte :=
  putBytes s.bytes (layout.nameOffset file) sizeofName text

/-- `SYS_CHMETA`: what it stores in `sys_retval`, and the memory behind it. -/
def chmeta (pid : Nat) (desc : Half) (text : Nat → Byte) (type mode : Half) :
    Int × FileMemory :=
  match s.chmetaRefuses layout k pid desc with
  | some code => (code, s)
  | none =>
      let file := s.fileOf pid desc
      let bytes := s.copyMeta layout file text
      let bytes := putBytes bytes (layout.typeOffset file) 4 (byteOf type)
      let bytes := putBytes bytes (layout.modeOffset file) 4 (byteOf mode)
      (0, { s with bytes := bytes })

/-- `template_constructor`. -/
def templateConstructor (target : Nat) (parent : Word) (name : Nat → Byte) (type : Half) :
    FileMemory :=
  let bytes := strcpyAt s.bytes (layout.nameOffset target) name
  let bytes := putBytes bytes (layout.typeOffset target) 4 (byteOf type)
  let bytes := putBytes bytes (layout.parentOffset target) 8 (byteOf parent)
  { s with
    bytes := bytes
    live := Function.update s.live target true }

end Calls

/-- The calls that write names. -/
inductive NameOp where
  | sysopen (pid : Nat) (call : OpenCall)
  | chmeta (pid : Nat) (desc : Half) (text : Nat → Byte) (type mode : Half)
  | construct (target : Nat) (parent : Word) (name : Nat → Byte) (type : Half)

section Law

variable (layout : FileLayout) (k : Constants) (s : FileMemory)

/-- A call that returns. -/
def NameStep (op : NameOp) (s' : FileMemory) : Prop :=
  match op with
  | .sysopen pid call =>
      ∃ fuel r, (s.kernel layout).sysopen k pid call fuel = some r ∧ s' = s.afterOpen layout r
  | .chmeta pid desc text type mode => s' = (s.chmeta layout k pid desc text type mode).2
  | .construct target parent name type =>
      s' = s.templateConstructor layout target parent name type

/-- The bytes of the name of a file. -/
def nameByte (file i : Nat) : Byte := s.bytes (layout.nameOffset file + i)

/-- **The name of every live file ends**, and so no comparison with a path goes on behind its
64 bytes: as many rounds of the loop are enough. -/
structure NamesEnd : Prop where
  terminated : ∀ file, s.live file = true → ∃ i, i < sizeofName ∧ s.nameByte layout file i = 0
  compared : ∀ file, s.live file = true → ∀ path recurse start r fuel, sizeofName ≤ fuel →
    (s.kernel layout).vfs.nameLoop path recurse start file fuel 0 r =
      (s.kernel layout).vfs.nameLoop path recurse start file sizeofName 0 r

/-- The copy of a name changes nothing but the name. -/
def CopiesName (op : NameOp) : Prop :=
  match op with
  | .sysopen pid call =>
      ∀ fuel r file, (s.kernel layout).sysopen k pid call fuel = some r →
        r.created = some file → ∀ n, ¬ layout.InName file n →
          (s.afterOpen layout r).bytes n =
            s.blankFile layout file (r.kernel.vfs.descriptions file).data n
  | .chmeta pid desc text _ _ =>
      s.chmetaRefuses layout k pid desc = none →
        ∀ n, ¬ layout.InName (s.fileOf pid desc) n →
          s.copyMeta layout (s.fileOf pid desc) text n = s.bytes n
  | .construct target _ name _ =>
      ∀ n, ¬ layout.InName target n →
        strcpyAt s.bytes (layout.nameOffset target) name n = s.bytes n

/-- A zero among the first 64 bytes. -/
def EndsInside (text : Nat → Byte) : Prop :=
  ∃ i, i < sizeofName ∧ text i = 0

/-- The condition on a call: what is copied to a file that is live behind the call ends within
its name. -/
def NameSafe (op : NameOp) : Prop :=
  match op with
  | .sysopen _ _ => True
  | .chmeta pid desc text _ _ =>
      s.chmetaRefuses layout k pid desc = none → s.live (s.fileOf pid desc) = true →
        EndsInside text
  | .construct _ _ name _ => EndsInside name

/-- The pool starts at a page, and its stride is the size of a file. -/
structure Placed : Prop where
  pool : 8 ∣ s.pool.pool.toNat
  stride : s.pool.stride.toNat = layout.size

end Law

end FileMemory

section Copies

variable {bytes : Nat → Byte} {start n m : Nat} {value text : Nat → Byte}

theorem putBytes_inside
    {i : Nat}
    (hi : i < n) :
    putBytes bytes start n value (start + i) = value i := by
  rw [putBytes, if_pos (by omega), Nat.add_sub_cancel_left]

theorem putBytes_outside
    (h : m < start ∨ start + n ≤ m) :
    putBytes bytes start n value m = bytes m := by
  rw [putBytes, if_neg (by omega)]

theorem strcpyAt_inside
    {i : Nat}
    (h : ∀ j, j < i → text j ≠ 0) :
    strcpyAt bytes start text (start + i) = text i := by
  rw [strcpyAt, Nat.add_sub_cancel_left, if_pos ⟨by omega, h⟩]

theorem strcpyAt_before
    (h : m < start) :
    strcpyAt bytes start text m = bytes m := by
  rw [strcpyAt, if_neg (by omega)]

theorem strcpyAt_behind
    {i j : Nat}
    (hend : text j = 0)
    (hj : j < i) :
    strcpyAt bytes start text (start + i) = bytes (start + i) := by
  rw [strcpyAt, Nat.add_sub_cancel_left, if_neg fun h => h.2 j hj hend]

/-- A string that ends within a name stays within it. -/
theorem strcpyAt_outside
    (hends : FileMemory.EndsInside text)
    (h : m < start ∨ start + sizeofName ≤ m) :
    strcpyAt bytes start text m = bytes m := by
  obtain ⟨j, hj, hend⟩ := hends
  rcases h with h | h
  · exact strcpyAt_before h
  · obtain ⟨i, rfl⟩ := Nat.exists_eq_add_of_le (Nat.le_of_add_right_le h)
    exact strcpyAt_behind hend (by omega)

/-- Its zero is copied. -/
theorem strcpyAt_ends
    (hends : FileMemory.EndsInside text) :
    ∃ i, i < sizeofName ∧ strcpyAt bytes start text (start + i) = 0 := by
  have hfind : ∃ i, text i = 0 := hends.imp fun _ h => h.2
  obtain ⟨j, hj, hend⟩ := hends
  refine ⟨Nat.find hfind, Nat.lt_of_le_of_lt (Nat.find_min' hfind hend) hj, ?_⟩
  rw [strcpyAt_inside fun j hj => Nat.find_min hfind hj]
  exact Nat.find_spec hfind

end Copies

section Places

variable {layout : FileLayout} {file other i : Nat}

theorem not_inName_iff
    {n : Nat} :
    ¬ layout.InName file n ↔
      n < layout.nameOffset file ∨ layout.nameOffset file + sizeofName ≤ n := by
  unfold FileLayout.InName
  omega

/-- The metadata lie before the parent, and both in the file. -/
theorem fields_fit
    (layout : FileLayout) (file : Nat) :
    file * layout.size ≤ layout.nameOffset file ∧
      layout.nameOffset file + sizeofMeta ≤ layout.parentOffset file ∧
      layout.parentOffset file + 8 ≤ file * layout.size + layout.size := by
  have hdata := layout.data_fits
  have hparent := layout.parent_fits
  unfold FileLayout.nameOffset FileLayout.parentOffset
  omega

/-- The type and the mode lie behind the name. -/
theorem typeOffset_eq
    (layout : FileLayout) (file : Nat) :
    layout.typeOffset file = layout.nameOffset file + sizeofName :=
  rfl

theorem modeOffset_eq
    (layout : FileLayout) (file : Nat) :
    layout.modeOffset file = layout.nameOffset file + sizeofName + 4 :=
  rfl

theorem sizeofMeta_eq : sizeofMeta = sizeofName + 32 :=
  rfl

/-- Files do not overlap. -/
theorem files_apart
    (layout : FileLayout)
    (h : file ≠ other) :
    file * layout.size + layout.size ≤ other * layout.size ∨
      other * layout.size + layout.size ≤ file * layout.size := by
  rcases Nat.lt_or_gt_of_ne h with h | h
  · exact Or.inl (Nat.succ_mul file layout.size ▸ Nat.mul_le_mul_right _ h)
  · exact Or.inr (Nat.succ_mul other layout.size ▸ Nat.mul_le_mul_right _ h)

/-- Neither do their names. -/
theorem not_inName_of_ne
    (hi : i < sizeofName)
    (h : other ≠ file) :
    ¬ layout.InName file (layout.nameOffset other + i) := by
  have hfile := fields_fit layout file
  have hother := fields_fit layout other
  have hapart := files_apart layout h
  rw [sizeofMeta_eq] at hfile hother
  rw [not_inName_iff]
  omega

/-- What is stored in a file behind its name is in no name. -/
theorem putBytes_field
    {bytes : Nat → Byte} {start n : Nat} {value : Nat → Byte}
    (file : Nat)
    (hstart : layout.nameOffset file + sizeofName ≤ start)
    (hend : start + n ≤ file * layout.size + layout.size)
    (hi : i < sizeofName) :
    putBytes bytes start n value (layout.nameOffset other + i) =
      bytes (layout.nameOffset other + i) := by
  apply putBytes_outside
  have hfits := fields_fit layout other
  rw [sizeofMeta_eq] at hfits
  by_cases h : other = file
  · subst h
    omega
  · have hfile := fields_fit layout file
    have hapart := files_apart layout h
    omega

end Places

namespace FileMemory

variable {layout : FileLayout} {k : Constants} {s s' : FileMemory}

section Comparison

variable {vfs : Vfs} {path : Nat → Byte}
variable {recurse : Nat → Nat → Reached → Option (Nat × Reached)}

/-- A comparison that is at most `left` characters away from the zero of the name. -/
theorem nameLoop_rounds
    {start test left o fuel : Nat}
    (hend : (vfs.descriptions test).data.name (o + left) = 0)
    (hfuel : left < fuel)
    (r : Reached) :
    vfs.nameLoop path recurse start test fuel o r =
      vfs.nameLoop path recurse start test (left + 1) o r := by
  induction left generalizing o fuel r with
  | zero =>
      obtain ⟨fuel, rfl⟩ : ∃ n, fuel = n + 1 := ⟨fuel - 1, by omega⟩
      rw [Vfs.nameLoop, Vfs.nameLoop]
      split_ifs with hne hzero hslash htype
      · rfl
      · rfl
      · rfl
      · exact absurd ((not_not.mp hne).trans hend) hzero
      · exact absurd ((not_not.mp hne).trans hend) hzero
  | succ left ih =>
      obtain ⟨fuel, rfl⟩ : ∃ n, fuel = n + 1 := ⟨fuel - 1, by omega⟩
      have hnext : ∀ r, vfs.nameLoop path recurse start test fuel (o + 1) r =
          vfs.nameLoop path recurse start test (left + 1) (o + 1) r := by
        have hend' : (vfs.descriptions test).data.name (o + 1 + left) = 0 := by
          rwa [Nat.add_assoc, Nat.add_comm 1]
        exact fun r => ih hend' (by omega) r
      rw [Vfs.nameLoop, Vfs.nameLoop]
      simp only [hnext]

end Comparison

theorem kernel_name
    {file i : Nat}
    (hi : i < sizeofName) :
    ((s.kernel layout).vfs.descriptions file).data.name i = s.nameByte layout file i := by
  have hname := layout.decode_name (fun i => s.bytes (file * layout.size + i)) i hi
  rw [FileMemory.nameByte, FileLayout.nameOffset, Nat.add_assoc]
  exact hname

/-- Names that end are compared within their 64 bytes. -/
theorem namesEnd_of_terminated
    (h : ∀ file, s.live file = true →
      ∃ i, i < sizeofName ∧ s.nameByte layout file i = 0) :
    s.NamesEnd layout := by
  refine ⟨h, fun file hlive path recurse start r fuel hfuel => ?_⟩
  obtain ⟨i, hi, hend⟩ := h file hlive
  have hzero : ((s.kernel layout).vfs.descriptions file).data.name (0 + i) = 0 := by
    rw [Nat.zero_add, kernel_name hi]
    exact hend
  rw [nameLoop_rounds hzero (by omega), nameLoop_rounds hzero hi]

/-- Names that are not written keep their ends. -/
theorem NamesEnd.of_kept
    (h : s.NamesEnd layout)
    (hlive : s'.live = s.live)
    (hkept : ∀ file, s.live file = true → ∀ i, i < sizeofName →
      s'.nameByte layout file i = s.nameByte layout file i) :
    s'.NamesEnd layout := by
  refine namesEnd_of_terminated fun file hfile => ?_
  rw [hlive] at hfile
  obtain ⟨i, hi, hend⟩ := h.terminated file hfile
  exact ⟨i, hi, (hkept file hfile i hi).trans hend⟩

section Opening

variable {pid : Nat} {call : OpenCall} {fuel : Nat} {r : OpenResult}

theorem Placed.aligned
    (h : s.Placed layout) :
    (s.kernel layout).vfs.Aligned :=
  ⟨h.pool, h.stride ▸ layout.aligned⟩

/-- `SYSOPEN` writes no file. -/
theorem afterOpen_files
    (hplaced : s.Placed layout)
    (h : (s.kernel layout).sysopen k pid call fuel = some r) :
    (s.afterOpen layout r).pool = s.pool ∧ (s.afterOpen layout r).bytes = s.bytes ∧
      (s.afterOpen layout r).live = s.live := by
  obtain ⟨hcreated, hvfs⟩ := sysopen_vfs hplaced.aligned h
  rw [afterOpen, hcreated, hvfs]
  exact ⟨rfl, rfl, rfl⟩

end Opening

section Metadata

variable {pid : Nat} {desc : Half} {text : Nat → Byte} {type mode : Half}

theorem chmeta_refused
    {code : Int}
    (h : s.chmetaRefuses layout k pid desc = some code) :
    s.chmeta layout k pid desc text type mode = (code, s) := by
  rw [chmeta, h]

theorem chmeta_frame :
    (s.chmeta layout k pid desc text type mode).2.pool = s.pool ∧
      (s.chmeta layout k pid desc text type mode).2.live = s.live := by
  cases h : s.chmetaRefuses layout k pid desc with
  | none =>
      rw [chmeta, h]
      exact ⟨rfl, rfl⟩
  | some code =>
      rw [chmeta_refused h]
      exact ⟨rfl, rfl⟩

/-- The name becomes what was passed, and no other name changes. -/
theorem chmeta_nameByte
    {file i : Nat}
    (h : s.chmetaRefuses layout k pid desc = none)
    (hi : i < sizeofName) :
    (s.chmeta layout k pid desc text type mode).2.nameByte layout file i =
      if file = s.fileOf pid desc then text i else s.nameByte layout file i := by
  have hfits := fields_fit layout (s.fileOf pid desc)
  rw [sizeofMeta_eq] at hfits
  rw [chmeta, h]
  dsimp only [nameByte]
  rw [modeOffset_eq, typeOffset_eq, putBytes_field (s.fileOf pid desc) (by omega) (by omega) hi,
    putBytes_field (s.fileOf pid desc) (by omega) (by omega) hi, copyMeta]
  split_ifs with hfile
  · rw [hfile]
    exact putBytes_inside hi
  · exact putBytes_outside (not_inName_iff.mp (not_inName_of_ne hi hfile))

/-- `SYS_CHMETA` on the bytes is `SYS_CHMETA` on the record. -/
theorem chmeta_byte
    {m : Meta}
    (h : s.chmetaRefuses layout k pid desc = none)
    (hmeta : ∀ i, i < sizeofMeta →
      s.bytes (layout.nameOffset (s.fileOf pid desc) + i) = m.byte i) :
    ∀ i, i < sizeofMeta →
      (s.chmeta layout k pid desc text type mode).2.bytes
          (layout.nameOffset (s.fileOf pid desc) + i) =
        { m with name := text, type := type, mode := mode }.byte i := by
  intro i hi
  have htype : layout.typeOffset (s.fileOf pid desc) =
      layout.nameOffset (s.fileOf pid desc) + 64 := rfl
  have hmode : layout.modeOffset (s.fileOf pid desc) =
      layout.nameOffset (s.fileOf pid desc) + 68 := rfl
  have hold := hmeta i hi
  rw [chmeta, h]
  dsimp only [copyMeta]
  rw [hmode, htype]
  generalize layout.nameOffset (s.fileOf pid desc) = start at hold ⊢
  unfold Meta.byte at hold ⊢
  by_cases hname : i < 64
  · rw [putBytes_outside (by omega), putBytes_outside (by omega), putBytes_inside hname,
      if_pos hname]
  · rw [if_neg hname] at hold ⊢
    by_cases htype : i < 68
    · obtain ⟨j, rfl⟩ := Nat.exists_eq_add_of_le (Nat.not_lt.mp hname)
      rw [putBytes_outside (by omega), ← Nat.add_assoc, putBytes_inside (by omega), if_pos htype,
        Nat.add_sub_cancel_left]
    · rw [if_neg htype] at hold ⊢
      by_cases hmode : i < 72
      · obtain ⟨j, rfl⟩ := Nat.exists_eq_add_of_le (Nat.not_lt.mp htype)
        rw [← Nat.add_assoc, putBytes_inside (by omega), if_pos hmode, Nat.add_sub_cancel_left]
      · rw [if_neg hmode] at hold ⊢
        have hsize : sizeofName = 64 := rfl
        rw [putBytes_outside (by omega), putBytes_outside (by omega),
          putBytes_outside (by omega), hold]

/-- The names end behind a call exactly when the bytes passed for a live file do. -/
theorem namesEnd_chmeta_iff
    (hnames : s.NamesEnd layout)
    (h : s.chmetaRefuses layout k pid desc = none) :
    (s.chmeta layout k pid desc text type mode).2.NamesEnd layout ↔
      (s.live (s.fileOf pid desc) = true → EndsInside text) := by
  have hlive : (s.chmeta layout k pid desc text type mode).2.live = s.live := chmeta_frame.2
  constructor
  · intro hends htarget
    rw [← hlive] at htarget
    obtain ⟨i, hi, hend⟩ := hends.terminated _ htarget
    rw [chmeta_nameByte h hi, if_pos rfl] at hend
    exact ⟨i, hi, hend⟩
  · intro htext
    refine namesEnd_of_terminated fun file hfile => ?_
    rw [hlive] at hfile
    by_cases htarget : file = s.fileOf pid desc
    · obtain ⟨i, hi, hend⟩ := htext (htarget ▸ hfile)
      exact ⟨i, hi, by rw [chmeta_nameByte h hi, if_pos htarget, hend]⟩
    · obtain ⟨i, hi, hend⟩ := hnames.terminated file hfile
      exact ⟨i, hi, by rw [chmeta_nameByte h hi, if_neg htarget, hend]⟩

end Metadata

section Constructing

variable {target : Nat} {parent : Word} {name : Nat → Byte} {type : Half}

/-- Behind the copy, the constructor leaves the names alone. -/
theorem templateConstructor_nameByte
    {file i : Nat}
    (hi : i < sizeofName) :
    (s.templateConstructor layout target parent name type).nameByte layout file i =
      strcpyAt s.bytes (layout.nameOffset target) name (layout.nameOffset file + i) := by
  have hfits := fields_fit layout target
  rw [sizeofMeta_eq] at hfits
  dsimp only [nameByte, templateConstructor]
  rw [typeOffset_eq, putBytes_field target (by omega) (by omega) hi,
    putBytes_field target (by omega) (by omega) hi]

/-- A string that does not end within the name leaves the file without an end. -/
theorem not_namesEnd_construct
    (hlong : ¬ EndsInside name) :
    ¬ (s.templateConstructor layout target parent name type).NamesEnd layout := by
  have hbytes : ∀ i, i < sizeofName → name i ≠ 0 := fun i hi hend => hlong ⟨i, hi, hend⟩
  intro h
  obtain ⟨i, hi, hend⟩ := h.terminated target (Function.update_self _ _ _)
  rw [templateConstructor_nameByte hi,
    strcpyAt_inside fun j hj => hbytes j (Nat.lt_trans hj hi)] at hend
  exact hbytes i hi hend

/-- One that does stays within it. -/
theorem copiesName_construct
    (hends : EndsInside name) :
    s.CopiesName layout k (.construct target parent name type) :=
  fun _ hn => strcpyAt_outside hends (not_inName_iff.mp hn)

/-- And so it gives the file an end and leaves those of the others. -/
theorem namesEnd_construct
    (hnames : s.NamesEnd layout)
    (hends : EndsInside name) :
    (s.templateConstructor layout target parent name type).NamesEnd layout := by
  refine namesEnd_of_terminated fun file hfile => ?_
  by_cases hsame : file = target
  · subst hsame
    obtain ⟨i, hi, hend⟩ := strcpyAt_ends hends
    exact ⟨i, hi, by rw [templateConstructor_nameByte hi, hend]⟩
  · have hlive : s.live file = true := (Function.update_of_ne hsame _ _).symm.trans hfile
    obtain ⟨i, hi, hend⟩ := hnames.terminated file hlive
    refine ⟨i, hi, ?_⟩
    rw [templateConstructor_nameByte hi,
      strcpyAt_outside hends (not_inName_iff.mp (not_inName_of_ne hi hsame))]
    exact hend

/-- **The exact condition on a construction.** -/
theorem construct_iff
    (hnames : s.NamesEnd layout) :
    (s.templateConstructor layout target parent name type).NamesEnd layout ∧
        s.CopiesName layout k (.construct target parent name type) ↔
      s.NameSafe layout k (.construct target parent name type) :=
  ⟨fun h => not_not.mp fun hlong => not_namesEnd_construct hlong h.1,
    fun hends => ⟨namesEnd_construct hnames hends, copiesName_construct hends⟩⟩

end Constructing

/-- The pool stays where it is. -/
theorem placed_step
    {op : NameOp}
    (hplaced : s.Placed layout)
    (hstep : s.NameStep layout k op s') :
    s'.Placed layout := by
  have hpool : s'.pool = s.pool := by
    cases op with
    | sysopen pid call =>
        obtain ⟨fuel, r, hopen, rfl⟩ := hstep
        exact (afterOpen_files hplaced hopen).1
    | chmeta pid desc text type mode =>
        cases hstep
        exact chmeta_frame.1
    | construct target parent name type =>
        cases hstep
        rfl
  exact ⟨hpool ▸ hplaced.pool, hpool ▸ hplaced.stride⟩

/-- **A call keeps the names and writes nothing else exactly when it is safe.** -/
theorem namesEnd_step_iff
    {op : NameOp}
    (hplaced : s.Placed layout)
    (hnames : s.NamesEnd layout)
    (hstep : s.NameStep layout k op s') :
    s'.NamesEnd layout ∧ s.CopiesName layout k op ↔ s.NameSafe layout k op := by
  cases op with
  | sysopen pid call =>
      obtain ⟨fuel, r, hopen, rfl⟩ := hstep
      obtain ⟨-, hbytes, hlive⟩ := afterOpen_files hplaced hopen
      refine iff_of_true ⟨hnames.of_kept hlive fun file _ i _ => ?_, ?_⟩ trivial
      · rw [nameByte, hbytes, nameByte]
      · intro fuel r file hopen hcreated
        rw [(sysopen_vfs hplaced.aligned hopen).1] at hcreated
        cases hcreated
  | chmeta pid desc text type mode =>
      cases hstep
      have hinside : s.CopiesName layout k (.chmeta pid desc text type mode) :=
        fun _ n hn => putBytes_outside (not_inName_iff.mp hn)
      rw [and_iff_left hinside]
      cases hrefuses : s.chmetaRefuses layout k pid desc with
      | none =>
          rw [namesEnd_chmeta_iff hnames hrefuses]
          exact ⟨fun h _ => h, fun h => h hrefuses⟩
      | some code =>
          rw [chmeta_refused hrefuses]
          exact iff_of_true hnames fun hnone => absurd (hrefuses.symm.trans hnone) (by simp)
  | construct target parent name type =>
      cases hstep
      exact construct_iff hnames

/-- **In every run of the calls the names of the live files end, and are written without
touching anything else, exactly when every call copies to such a file what ends within 64
bytes.** -/
theorem names_terminated_iff
    {run : List (NameOp × FileMemory)}
    (hplaced : s.Placed layout)
    (hnames : s.NamesEnd layout)
    (hrun : Runs.Run (NameStep layout k) s run) :
    Runs.Always (NamesEnd layout) s run ∧
        Runs.EveryStep (fun s op _ => s.CopiesName layout k op) s run ↔
      Runs.StepsMeet (NameSafe layout k) s run := by
  have hinv : ∀ (s : FileMemory) op s', s.Placed layout → s.NameStep layout k op s' →
      s'.Placed layout := fun _ _ _ => placed_step
  have hexact : ∀ (s : FileMemory) op s', s.Placed layout → s.NamesEnd layout →
      s.NameStep layout k op s' →
      (s'.NamesEnd layout ∧ s.CopiesName layout k op ↔ s.NameSafe layout k op) :=
    fun _ _ _ hplaced hnames hstep => namesEnd_step_iff hplaced hnames hstep
  exact Runs.always_and_everyStep_iff_stepsMeet_of_invariant hinv hexact hrun hplaced hnames

end FileMemory

/-- The metadata at the start of a file, and a pointer behind it. -/
def plainLayout : FileLayout where
  data := 0
  parent := 96
  size := 104
  decode := fun image => { Vfs.zeroFile 0 with data := ⟨image, 0, 0, 0, 0, 0⟩ }
  data_fits := by decide
  parent_fits := by decide
  aligned := by decide
  decode_name := fun image k _ => by simp

/-- One live file of zeros in a pool at 4096, and processes of user 1 whose descriptor 0
refers to it. -/
def oneName : FileMemory where
  pool := ⟨.POINTER, 1, 1, fun _ => 255, 4096, 104⟩
  bytes := fun _ => 0
  live := fun file => file = 0
  nullFile := 0
  processes := fun _ =>
    ⟨1, ⟨⟨.POINTER, 1, 1, fun _ => 255, 8192, 8⟩, fun _ => 0⟩, fun _ => some ⟨0, 0, 0⟩⟩
  null := ⟨0, 0, 0⟩

theorem oneName_named :
    oneName.Placed plainLayout ∧ oneName.NamesEnd plainLayout :=
  ⟨⟨by decide, rfl⟩,
    FileMemory.namesEnd_of_terminated fun _ _ => ⟨0, by decide, rfl⟩⟩

/-- Metadata of 64 characters. -/
def longName (c : Byte) : FileMemory.NameOp := .chmeta 0 0 (fun _ => c) 1 0

/-- The name of one character. -/
def shortText (i : Nat) : Byte := if i = 0 then 97 else 0

/-- Another file with a short name. -/
def twoNames : FileMemory := oneName.templateConstructor plainLayout 1 0 shortText 0

/-- A file is constructed, and the name of the first one set to zeros. -/
def zeroRun : List (FileMemory.NameOp × FileMemory) :=
  [(.construct 1 0 shortText 0, twoNames),
    (longName 0, (twoNames.chmeta plainLayout ⟨0, 0, 0⟩ 0 0 (fun _ => 0) 1 0).2)]

theorem names_terminated_iff_zeros :
    Runs.Always (FileMemory.NamesEnd plainLayout) oneName zeroRun ∧
        Runs.EveryStep (fun s op _ => s.CopiesName plainLayout ⟨0, 0, 0⟩ op) oneName zeroRun ↔
      Runs.StepsMeet (FileMemory.NameSafe plainLayout ⟨0, 0, 0⟩) oneName zeroRun :=
  FileMemory.names_terminated_iff oneName_named.1 oneName_named.2
    (.cons rfl (.cons rfl (.nil _)))

/-- **64 bytes without a zero are taken for a name.** -/
theorem name_not_terminated :
    oneName.NamesEnd plainLayout ∧
      ∃ s', Runs.Run (FileMemory.NameStep plainLayout ⟨0, 0, 0⟩) oneName [(longName 97, s')] ∧
        ¬ Runs.Always (FileMemory.NamesEnd plainLayout) oneName [(longName 97, s')] := by
  refine ⟨oneName_named.2, _, .cons rfl (.nil _), fun h => ?_⟩
  have hbehind := ((Runs.always_cons _ _ _ _ _).mp h).2.1
  have hpasses : oneName.chmetaRefuses plainLayout ⟨0, 0, 0⟩ 0 0 = none := by decide
  have hlive : oneName.live (oneName.fileOf 0 0) = true := by decide
  obtain ⟨i, _, hend⟩ :=
    (FileMemory.namesEnd_chmeta_iff oneName_named.2 hpasses).mp hbehind hlive
  have hbyte : (97 : Byte) = 0 := hend
  exact absurd hbyte (by decide)

end Filesystem
end BestKernel
