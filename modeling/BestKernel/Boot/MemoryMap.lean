import BestKernel.Mem.FrameRuns
import BestKernel.Mem.IdentityMap
import BestKernel.Mem.Rewriting
import BestKernel.Mem.Swap
import Mathlib.Algebra.BigOperators.Group.List.Basic
import Mathlib.Algebra.GroupWithZero.Nat

/-!
# The memory map of the firmware

`setup_kernel` adds up the descriptors of the firmware and takes them over into the table of
frames and into the page tree of the kernel.  The frames that it marks are
`usedFrames_importMap`, the entries that it leaves in the tree `importMap_lastWriter`.

The sum is one of pages, where a size in bytes is wanted, and it is taken before the map is
fetched.  The test for conventional memory is made on the attributes, and the cache type is
looked for in the type; the other way around both would be right about it
(`cacheOf_advertised`).  Of the two callees, `manipulate_phys` marks one byte of the table, and
`map_identity` writes entries without an address.  `import_right_iff` puts it together.

A page counts as mapped to itself by the entry that `map_identity` would write for it, as the
kernel itself reads entries: the address in the bits from 13 on.

Readings of the source.  `attributes` and `memtype` are the fields `attribute` and `type`,
`kerndata` is an address, and a cache type is the one of that name in `enum cache`.  The
descriptors that are summed, of a map that is not there yet, are a list of their own.  The
table and the page tree do not overlap.  A division by zero in `map_identity` ends the import.
-/

namespace BestKernel
namespace Boot

open Machine
open Mem

/-- A descriptor of the map. -/
structure Descriptor where
  type : Half
  phys_start : Word
  pages_number : Half
  attributes : Half
deriving DecidableEq, Repr

/-- `__CONVENTIONAL__`. -/
abbrev CONVENTIONAL : Half := 7

/-- The masks of `uefi_memory::attributes` under the cache types. -/
def attributeMask : Cache → Half
  | .STRONGUNCACHEABLE => 0x1
  | .WRITECOMBINING => 0x2
  | .WRITETHROUGH => 0x4
  | .WRITEBACK => 0x6
  | .WEAKUNCACHEABLE => 0x8
  | .WRITEPROTECT => 0x1000

/-- The cache type that the import loop takes for a mask. -/
def cacheOf (memtype : Half) : Cache :=
  if memtype &&& attributeMask .STRONGUNCACHEABLE ≠ 0 then .STRONGUNCACHEABLE
  else if memtype &&& attributeMask .WRITECOMBINING ≠ 0 then .WRITECOMBINING
  else if memtype &&& attributeMask .WRITETHROUGH ≠ 0 then .WRITETHROUGH
  else if memtype &&& attributeMask .WRITEBACK ≠ 0 then .WRITEBACK
  else if memtype &&& attributeMask .WEAKUNCACHEABLE ≠ 0 then .WEAKUNCACHEABLE
  else if memtype &&& attributeMask .WRITEPROTECT ≠ 0 then .WRITEPROTECT
  else .WRITEBACK

/-- What the import loop writes: the table of frames and the words of the page tree. -/
structure Imported where
  table : RamTable
  tree : WordMemory

/-- One round of the import loop. -/
def importDescriptor (y : Nat) (kerndata : Word) (s : Imported) (d : Descriptor) :
    Option Imported :=
  if d.attributes &&& CONVENTIONAL = 0 then
    some { s with table := manipulatePhys s.table d.phys_start d.pages_number Pag.SMALLPAGE .SET }
  else
    (mapIdentity y s.tree kerndata d.phys_start d.pages_number (cacheOf d.type).code 1).map
      fun tree => { s with tree := tree }

def importMap (y : Nat) (kerndata : Word) (s : Imported) (map : List Descriptor) :
    Option Imported :=
  map.foldlM (importDescriptor y kerndata) s

/-- `sizeof_memory`, from what the field holds before. -/
def sizeofMemory (sizeof_memory : Word) (map : List Descriptor) : Word :=
  map.foldl (fun total d => total + d.pages_number.setWidth 64) sizeof_memory

section Specification

/-- The frames of a descriptor. -/
def Descriptor.frames (d : Descriptor) : Set Nat :=
  pageFrames d.phys_start d.pages_number Pag.SMALLPAGE

/-- Page `i` of a descriptor. -/
def Descriptor.page (d : Descriptor) (i : Nat) : Word :=
  d.phys_start + BitVec.ofNat 64 (4096 * i)

/-- The pages of all descriptors. -/
def pagesTotal (map : List Descriptor) : Nat :=
  (map.map fun d => d.pages_number.toNat).sum

/-- The cache types that a mask of attributes advertises. -/
def Advertised (attributes : Half) (cache : Cache) : Prop :=
  attributes &&& attributeMask cache ≠ 0

/-- The cache types that are right for a mask. -/
def CacheRight (attributes : Half) (cache : Cache) : Prop :=
  Advertised attributes cache ∨
    (∀ other, ¬ Advertised attributes other) ∧ cache = .WRITEBACK

/-- Flags of a mapping for users, with a cache type that is right. -/
def FlagsRight (attributes : Half) (x : Word) : Prop :=
  ∃ cache, CacheRight attributes cache ∧ x = templateFlags .MAP cache ||| 4

/-- An entry maps page `i` of a descriptor to itself. -/
structure EntryRight (d : Descriptor) (i : Nat) (entry : Word) : Prop where
  address : entryFrame entry = d.page i
  settings : FlagsRight d.attributes (flags entry)

variable (y : Nat) (kerndata sizeof_memory : Word) (s : Imported) (scanned map : List Descriptor)

/-- The entry of page `i` of a descriptor maps the page to itself. -/
def PageMapped (tree : WordMemory) (d : Descriptor) (i : Nat) : Prop :=
  ∃ start, phystoOffset y kerndata d.phys_start = some start ∧
    EntryRight d i (tree (wordAt start i))

/-- The table and the tree are what the map says. -/
structure Faithful (result : Imported) : Prop where
  used : ∀ d, d ∈ map → ∀ n, n ∈ d.frames →
    (n ∈ usedFrames result.table ↔ d.type ≠ CONVENTIONAL)
  mapped : ∀ d, d ∈ map → d.type = CONVENTIONAL → ∀ i, i < d.pages_number.toNat →
    PageMapped y kerndata result.tree d i

/-- The memory map is imported faithfully. -/
structure ImportRight : Prop where
  imported : ∃ result, importMap y kerndata s map = some result ∧
    Faithful y kerndata map result
  size : (sizeofMemory sizeof_memory scanned).toNat = 4096 * pagesTotal map

/-- A frame that is marked already, or that shares its byte of the table with the first
frame of a descriptor that has none of the three lowest attributes. -/
def Marked (n : Nat) : Prop :=
  n ∈ usedFrames s.table ∨
    ∃ d, d ∈ map ∧ d.attributes &&& CONVENTIONAL = 0 ∧ n ∈ touched d.phys_start d.pages_number

/-- A descriptor that has one of them is handed to `map_identity`, which writes the word. -/
def Writes (d : Descriptor) (a : Word) : Prop :=
  d.attributes &&& CONVENTIONAL ≠ 0 ∧
    ∃ start, phystoOffset y kerndata d.phys_start = some start ∧
      ∃ j, j < d.pages_number.toNat ∧ a = wordAt start j

/-- The last descriptor that writes a word. -/
def LastWriter (a : Word) : List Descriptor → Descriptor → Prop
  | [], _ => False
  | d :: map, last =>
      LastWriter a map last ∨
        (∀ e, e ∈ map → ¬ Writes y kerndata e a) ∧ Writes y kerndata d a ∧ last = d

/-- A template reads as an entry for one address, that of its execution bit. -/
abbrev templateFrame : Word := 0x40000

/-- What page `i` of a conventional descriptor needs: the last descriptor that writes its
entry has a type whose cache type is right for it, and the page lies where a template points;
or none writes it, and it was right before. -/
def PageSafe (d : Descriptor) (i : Nat) : Prop :=
  ∃ start, phystoOffset y kerndata d.phys_start = some start ∧
    (∀ last, LastWriter y kerndata (wordAt start i) map last →
      templateFrame = d.page i ∧
        FlagsRight d.attributes (templateFlags .MAP (cacheOf last.type) ||| 4)) ∧
    ((∀ e, e ∈ map → ¬ Writes y kerndata e (wordAt start i)) →
      EntryRight d i (s.tree (wordAt start i)))

/-- The condition, on the map and on what was there before. -/
structure ImportSafe : Prop where
  returns : ∀ d, d ∈ map → d.attributes &&& CONVENTIONAL ≠ 0 →
    y = Pag.BIGPAGE ∨ y = Pag.MIDPAGE
  used : ∀ d, d ∈ map → ∀ n, n ∈ d.frames → (Marked s map n ↔ d.type ≠ CONVENTIONAL)
  mapped : ∀ d, d ∈ map → d.type = CONVENTIONAL → ∀ i, i < d.pages_number.toNat →
    PageSafe y kerndata s map d i
  size : (sizeof_memory.toNat + pagesTotal scanned) % 2 ^ 64 = 4096 * pagesTotal map

end Specification

/-- The chain finds a right cache type when it is asked about the attributes. -/
theorem cacheOf_advertised (attributes : Half) : CacheRight attributes (cacheOf attributes) := by
  unfold cacheOf
  split_ifs with huc hwc hwt hwb hweak hwp
  · exact .inl huc
  · exact .inl hwc
  · exact .inl hwt
  · exact .inl hwb
  · exact .inl hweak
  · exact .inl hwp
  · refine .inr ⟨fun other => ?_, rfl⟩
    cases other <;> assumption

/-- It is asked about the type, and conventional memory becomes uncacheable. -/
theorem cacheOf_conventional : cacheOf CONVENTIONAL = .STRONGUNCACHEABLE := by
  decide

section Import

variable {y : Nat} {kerndata sizeof_memory : Word} {s s' result : Imported}
variable {d last : Descriptor} {scanned map : List Descriptor} {a : Word}

theorem importMap_cons :
    importMap y kerndata s (d :: map) = some result ↔
      ∃ s', importDescriptor y kerndata s d = some s' ∧
        importMap y kerndata s' map = some result := by
  rw [importMap, List.foldlM_cons]
  exact Option.bind_eq_some_iff

theorem importMap_nil :
    importMap y kerndata s [] = some result ↔ s = result :=
  Option.some_inj

/-- What a round does. -/
theorem importDescriptor_cases
    (h : importDescriptor y kerndata s d = some s') :
    d.attributes &&& CONVENTIONAL = 0 ∧ s'.tree = s.tree ∧
        s'.table = manipulatePhys s.table d.phys_start d.pages_number Pag.SMALLPAGE .SET ∨
      d.attributes &&& CONVENTIONAL ≠ 0 ∧ s'.table = s.table ∧
        mapIdentity y s.tree kerndata d.phys_start d.pages_number (cacheOf d.type).code 1 =
          some s'.tree := by
  unfold importDescriptor at h
  split_ifs at h with hattribute
  · cases h
    exact .inl ⟨hattribute, rfl, rfl⟩
  · obtain ⟨tree, htree, rfl⟩ := Option.map_eq_some_iff.mp h
    exact .inr ⟨hattribute, rfl, htree⟩

/-- **The frames that are marked.** -/
theorem usedFrames_importMap
    (h : importMap y kerndata s map = some result)
    (n : Nat) :
    n ∈ usedFrames result.table ↔ Marked s map n := by
  induction map generalizing s with
  | nil =>
      obtain rfl := importMap_nil.mp h
      exact ⟨.inl, fun h => h.resolve_right (by rintro ⟨d, hd, -⟩; cases hd)⟩
  | cons d map ih =>
      obtain ⟨s', hround, hrest⟩ := importMap_cons.mp h
      have hstep : n ∈ usedFrames s'.table ↔
          n ∈ usedFrames s.table ∨
            (d.attributes &&& CONVENTIONAL = 0 ∧ n ∈ touched d.phys_start d.pages_number) := by
        rcases importDescriptor_cases hround with
          ⟨hattribute, -, htable⟩ | ⟨hattribute, htable, -⟩
        · rw [htable, usedFrames_set, Set.mem_union]
          simp only [hattribute, true_and]
        · rw [htable]
          simp only [hattribute, false_and, or_false]
      rw [ih hrest]
      simp only [Marked, hstep, List.mem_cons, exists_eq_or_imp, or_assoc]

/-- What a round leaves in a word. -/
theorem importDescriptor_tree
    (h : importDescriptor y kerndata s d = some s') :
    (Writes y kerndata d a → s'.tree a = identityTemplate (cacheOf d.type).code 1) ∧
      (¬ Writes y kerndata d a → s'.tree a = s.tree a) := by
  rcases importDescriptor_cases h with ⟨hattribute, htree, -⟩ | ⟨hattribute, -, htree⟩
  · exact ⟨fun hwrites => absurd hattribute hwrites.1, fun _ => by rw [htree]⟩
  · obtain ⟨start, hstart, htree⟩ := mapIdentity_spec htree
    rw [htree]
    constructor
    · rintro ⟨-, start', hstart', j, hj, rfl⟩
      obtain rfl := Option.some_inj.mp (hstart.symm.trans hstart')
      have hpages := d.pages_number.isLt
      exact storeWords_wordAt (by omega) hj
    · intro hnot
      exact storeWords_of_not_mem fun j hj ha => hnot ⟨hattribute, start, hstart, j, hj, ha⟩

/-- A word that no descriptor writes stays as it was. -/
theorem importMap_unwritten
    (h : importMap y kerndata s map = some result)
    (hnone : ∀ e, e ∈ map → ¬ Writes y kerndata e a) :
    result.tree a = s.tree a := by
  induction map generalizing s with
  | nil =>
      obtain rfl := importMap_nil.mp h
      rfl
  | cons d map ih =>
      obtain ⟨s', hround, hrest⟩ := importMap_cons.mp h
      obtain ⟨hd, hmap⟩ := List.forall_mem_cons.mp hnone
      exact (ih hrest hmap).trans ((importDescriptor_tree hround).2 hd)

/-- **The entries that the import leaves.** -/
theorem importMap_lastWriter
    (h : importMap y kerndata s map = some result)
    (hlast : LastWriter y kerndata a map last) :
    result.tree a = identityTemplate (cacheOf last.type).code 1 := by
  induction map generalizing s with
  | nil => exact hlast.elim
  | cons d map ih =>
      obtain ⟨s', hround, hrest⟩ := importMap_cons.mp h
      rcases hlast with hlast | ⟨hnone, hwrites, rfl⟩
      · exact ih hrest hlast
      · exact (importMap_unwritten hrest hnone).trans ((importDescriptor_tree hround).1 hwrites)

/-- A word that is written has a last descriptor that writes it. -/
theorem exists_lastWriter
    (h : ¬ ∀ e, e ∈ map → ¬ Writes y kerndata e a) :
    ∃ last, LastWriter y kerndata a map last := by
  induction map with
  | nil => exact absurd (fun e he => absurd he List.not_mem_nil) h
  | cons d map ih =>
      by_cases hnone : ∀ e, e ∈ map → ¬ Writes y kerndata e a
      · refine ⟨d, .inr ⟨hnone, ?_, rfl⟩⟩
        by_contra hd
        exact h (List.forall_mem_cons.mpr ⟨hd, hnone⟩)
      · exact (ih hnone).imp fun _ => .inl

/-- A template as an entry. -/
theorem entryRight_identityTemplate_iff
    {i : Nat} {cache : Cache} :
    EntryRight d i (identityTemplate cache.code 1) ↔
      templateFrame = d.page i ∧ FlagsRight d.attributes (templateFlags .MAP cache ||| 4) := by
  have hframe : entryFrame (identityTemplate cache.code 1) = templateFrame := by
    cases cache <;> decide
  constructor
  · rintro ⟨haddress, hsettings⟩
    rw [hframe] at haddress
    rw [flags_identityTemplate] at hsettings
    exact ⟨haddress, hsettings⟩
  · rintro ⟨haddress, hsettings⟩
    refine ⟨hframe.trans haddress, ?_⟩
    rw [flags_identityTemplate]
    exact hsettings

/-- **When the entry of a page is right behind the import.** -/
theorem pageMapped_iff
    (h : importMap y kerndata s map = some result)
    (d : Descriptor) (i : Nat) :
    PageMapped y kerndata result.tree d i ↔ PageSafe y kerndata s map d i := by
  refine exists_congr fun start => and_congr_right fun _ => ?_
  by_cases hnone : ∀ e, e ∈ map → ¬ Writes y kerndata e (wordAt start i)
  · rw [importMap_unwritten h hnone]
    refine ⟨fun hright => ⟨fun last hlast => ?_, fun _ => hright⟩, fun hsafe => hsafe.2 hnone⟩
    rw [← entryRight_identityTemplate_iff, ← importMap_lastWriter h hlast,
      importMap_unwritten h hnone]
    exact hright
  · obtain ⟨last, hlast⟩ := exists_lastWriter hnone
    rw [importMap_lastWriter h hlast, entryRight_identityTemplate_iff]
    refine ⟨fun hright => ⟨fun other hother => ?_, fun hall => absurd hall hnone⟩,
      fun hsafe => hsafe.1 last hlast⟩
    rw [← entryRight_identityTemplate_iff, ← importMap_lastWriter h hother,
      importMap_lastWriter h hlast, entryRight_identityTemplate_iff]
    exact hright

/-- The import comes to an end exactly when no `map_identity` divides by zero. -/
theorem importMap_returns_iff :
    (∃ result, importMap y kerndata s map = some result) ↔
      ∀ d, d ∈ map → d.attributes &&& CONVENTIONAL ≠ 0 → y = Pag.BIGPAGE ∨ y = Pag.MIDPAGE := by
  induction map generalizing s with
  | nil => exact iff_of_true ⟨s, rfl⟩ fun d hd => absurd hd List.not_mem_nil
  | cons d map ih =>
      have hround : (∃ s', importDescriptor y kerndata s d = some s') ↔
          (d.attributes &&& CONVENTIONAL ≠ 0 → y = Pag.BIGPAGE ∨ y = Pag.MIDPAGE) := by
        unfold importDescriptor
        split_ifs with hattribute
        · exact iff_of_true ⟨_, rfl⟩ fun hne => absurd hattribute hne
        · rw [imp_iff_right hattribute, ← Option.ne_none_iff_exists', ne_eq,
            Option.map_eq_none_iff, mapIdentity_eq_none_iff, not_and_or, not_not, not_not]
      rw [List.forall_mem_cons, ← hround]
      constructor
      · rintro ⟨result, h⟩
        obtain ⟨s', hfirst, hrest⟩ := importMap_cons.mp h
        exact ⟨⟨s', hfirst⟩, ih.mp ⟨result, hrest⟩⟩
      · rintro ⟨⟨s', hfirst⟩, hall⟩
        obtain ⟨result, hrest⟩ := ih.mpr hall
        exact ⟨result, importMap_cons.mpr ⟨s', hfirst, hrest⟩⟩

theorem pagesTotal_cons
    (d : Descriptor)
    (map : List Descriptor) :
    pagesTotal (d :: map) = d.pages_number.toNat + pagesTotal map :=
  List.sum_cons

theorem sizeofMemory_toNat :
    (sizeofMemory sizeof_memory map).toNat =
      (sizeof_memory.toNat + pagesTotal map) % 2 ^ 64 := by
  induction map generalizing sizeof_memory with
  | nil => exact (Nat.mod_eq_of_lt sizeof_memory.isLt).symm
  | cons d map ih =>
      have hsmall := d.pages_number.isLt
      rw [sizeofMemory, List.foldl_cons, ← sizeofMemory, ih, pagesTotal_cons, BitVec.toNat_add,
        BitVec.toNat_setWidth]
      omega

variable (y kerndata sizeof_memory s scanned map)

/-- **When the memory map is imported faithfully**: the sum of the pages that were scanned comes
to the bytes of the map, the frames marked are by accident those in use, and every page of
conventional memory has an entry that fits it by accident. -/
theorem import_right_iff :
    ImportRight y kerndata sizeof_memory s scanned map ↔
      ImportSafe y kerndata sizeof_memory s scanned map := by
  constructor
  · rintro ⟨⟨result, hresult, hused, hmapped⟩, hsize⟩
    refine ⟨importMap_returns_iff.mp ⟨result, hresult⟩, ?_, ?_,
      sizeofMemory_toNat.symm.trans hsize⟩
    · intro d hd n hn
      exact (usedFrames_importMap hresult n).symm.trans (hused d hd n hn)
    · intro d hd htype i hi
      exact (pageMapped_iff hresult d i).mp (hmapped d hd htype i hi)
  · rintro ⟨hreturns, hused, hmapped, hsize⟩
    obtain ⟨result, hresult⟩ := importMap_returns_iff.mpr hreturns
    refine ⟨⟨result, hresult, ?_, ?_⟩, sizeofMemory_toNat.trans hsize⟩
    · intro d hd n hn
      exact (usedFrames_importMap hresult n).trans (hused d hd n hn)
    · intro d hd htype i hi
      exact (pageMapped_iff hresult d i).mpr (hmapped d hd htype i hi)

end Import

theorem pagesTotal_eq_zero_iff
    (map : List Descriptor) :
    pagesTotal map = 0 ↔ ∀ d, d ∈ map → d.pages_number = 0 := by
  induction map with
  | nil => exact ⟨fun _ d hd => absurd hd List.not_mem_nil, fun _ => rfl⟩
  | cons d map ih =>
      have hzero : d.pages_number.toNat = 0 ↔ d.pages_number = 0 :=
        BitVec.toNat_inj (y := 0#32)
      rw [pagesTotal_cons, Nat.add_eq_zero_iff, ih, hzero, List.forall_mem_cons]

/-- A sum that begins at zero, over the map itself, is right for no map but one of empty
descriptors. -/
theorem sizeofMemory_zero_iff
    (map : List Descriptor) :
    (sizeofMemory 0 map).toNat = 4096 * pagesTotal map ↔
      ∀ d, d ∈ map → d.pages_number = 0 := by
  have hzero : (0 : Word).toNat = 0 := rfl
  rw [sizeofMemory_toNat, ← pagesTotal_eq_zero_iff, hzero]
  omega

/-- The only descriptor of a map writes the entries of its pages. -/
theorem lastWriter_single
    {y : Nat} {kerndata start : Word} {d : Descriptor} {i : Nat}
    (hattribute : d.attributes &&& CONVENTIONAL ≠ 0)
    (hstart : phystoOffset y kerndata d.phys_start = some start)
    (hi : i < d.pages_number.toNat) :
    LastWriter y kerndata (wordAt start i) [d] d :=
  .inr ⟨fun _ he => absurd he List.not_mem_nil, ⟨hattribute, start, hstart, i, hi, rfl⟩, rfl⟩

/-- A page of conventional memory at 256 KiB, where templates point, that cannot be cached. -/
def lowPage : Descriptor := ⟨CONVENTIONAL, 0x40000, 1, 1⟩

/-- It is imported faithfully when the field held 4095 before. -/
theorem lowPage_imported :
    ImportRight Pag.MIDPAGE 8192 4095 ⟨fun _ => 0, fun _ => 0⟩ [lowPage] [lowPage] := by
  rw [import_right_iff]
  refine ⟨fun _ _ _ => .inr rfl, ?_, ?_, by decide⟩
  · intro d hd n _
    obtain rfl := List.mem_singleton.mp hd
    refine iff_of_false ?_ fun htype => htype rfl
    rintro (hbefore | ⟨e, he, hattribute, -⟩)
    · simp [usedFrames] at hbefore
    · obtain rfl := List.mem_singleton.mp he
      exact absurd hattribute (by decide)
  · intro d hd _ i hi
    obtain rfl := List.mem_singleton.mp hd
    obtain rfl : i = 0 := Nat.lt_one_iff.mp hi
    obtain ⟨start, hstart⟩ := Option.ne_none_iff_exists'.mp
      fun hnone => ((phystoOffset_eq_none_iff Pag.MIDPAGE 8192 lowPage.phys_start).mp hnone).2 rfl
    have hwriter := lastWriter_single (d := lowPage) (by decide) hstart hi
    refine ⟨start, hstart, fun last hlast => ?_, fun hnone => ?_⟩
    · rcases hlast with hlast | ⟨-, -, rfl⟩
      · exact hlast.elim
      · have hadvertised : Advertised lowPage.attributes .STRONGUNCACHEABLE := by
          unfold Advertised
          decide
        exact ⟨by decide, .STRONGUNCACHEABLE, .inl hadvertised, by decide⟩
    · rcases hwriter with hlast | ⟨-, hwrites, -⟩
      · exact hlast.elim
      · exact absurd hwrites (hnone lowPage List.mem_cons_self)

/-- One page of conventional memory at 1 MiB, with every cache type advertised. -/
def onePage : Descriptor := ⟨CONVENTIONAL, 0x100000, 1, 0x100F⟩

/-- It is not imported faithfully into an empty table and an empty tree: the import returns, its
entry is for another address, and the sum is 1. -/
theorem onePage_not_imported :
    (∃ result, importMap Pag.MIDPAGE 8192 ⟨fun _ => 0, vmtreeLay 256 (fun _ => 0) 8192#64⟩
        [onePage] = some result ∧ ¬ PageMapped Pag.MIDPAGE 8192 result.tree onePage 0) ∧
      ¬ ImportRight Pag.MIDPAGE 8192 0 ⟨fun _ => 0, vmtreeLay 256 (fun _ => 0) 8192#64⟩
        [onePage] [onePage] := by
  constructor
  · have hreturns : ∃ result, importMap Pag.MIDPAGE 8192
        ⟨fun _ => 0, vmtreeLay 256 (fun _ => 0) 8192#64⟩ [onePage] = some result :=
      importMap_returns_iff.mpr fun _ _ _ => .inr rfl
    obtain ⟨result, hresult⟩ := hreturns
    refine ⟨result, hresult, fun hmapped => ?_⟩
    obtain ⟨start, hstart, hlast, -⟩ := (pageMapped_iff hresult onePage 0).mp hmapped
    have haddress := (hlast onePage (lastWriter_single (by decide) hstart (by decide))).1
    exact absurd haddress (by decide)
  · intro h
    exact absurd h.size (by decide)

end Boot
end BestKernel
