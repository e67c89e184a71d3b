import BestKernel.Filesystem.Tree

/-!
# What a path names

`resolve` follows the components of a path through live children.
`recurse_directories` should do the same, but it compares the whole rest of the path
with one name, and a name has no slash: the branch for a slash is never taken
(`recurseDirectories_eq`).  So a path of several components is found by no search,
whatever the directories hold, and a path of one component is found.

`open` returns the file whose slot is the error code and not the one that was found.
Together: a path that names a file is opened right only when it has a single
component and the file is number 0 (`path_found_iff`).
-/

namespace BestKernel
namespace Filesystem

open Machine
open Syscalls (DIRECTORY)

/-- A string of nonzero bytes from `start` on, with a zero behind it. -/
def StringAt (s : Nat → Byte) : Nat → List Byte → Prop
  | start, [] => s start = 0
  | start, b :: text => s start = b ∧ b ≠ 0 ∧ StringAt s (start + 1) text

/-- The text of a name. -/
def nameText (name : Nat → Byte) : List Byte :=
  ((List.range' 0 Syscalls.sizeofName).map name).takeWhile (· ≠ 0)

/-- What a path leads to. -/
inductive Resolution where
  | found (index : Nat)
  | notaDir
  | noMatching
deriving DecidableEq

namespace Vfs

variable (vfs : Vfs)

/-- The children in `left` slots from `i` on that are live. -/
def liveEntries (dir i left : Nat) : List Nat :=
  ((List.range' i left).filter fun j => (vfs.descriptions dir).children.ckarray j ≠ 0).map
    (vfs.descriptions dir).entries

/-- The live children of a directory. -/
def liveChildren (dir : Nat) : List Nat :=
  vfs.liveEntries dir 0 (vfs.descriptions dir).children.length.toNat

/-- The live child of a name, the first one where there are several. -/
def childNamed (dir : Nat) (text : List Byte) : Option Nat :=
  (vfs.liveChildren dir).find? fun f => nameText (vfs.descriptions f).data.name = text

/-- The components followed through live children. -/
def resolve : Nat → List (List Byte) → Resolution
  | dir, [] => .found dir
  | dir, component :: rest =>
      match vfs.childNamed dir component with
      | none => .noMatching
      | some f =>
          if rest = [] then .found f
          else if (vfs.descriptions f).data.type ≠ DIRECTORY then .notaDir
          else resolve f rest

/-- The names of the live children are strings without a slash. -/
def WellNamed (dir : Nat) : Prop :=
  ∀ f, f ∈ vfs.liveChildren dir →
    ∃ text, StringAt (vfs.descriptions f).data.name 0 text ∧
      text.length < Syscalls.sizeofName ∧ slash ∉ text

end Vfs

/-- A search returned what the path leads to. -/
def Agrees (result : Nat × Reached) : Resolution → Prop
  | .found f => result.1 = 0 ∧ result.2.index = f
  | .notaDir => result.1 = NOTA_DIR
  | .noMatching => result.1 = NO_MATCHING_FILENAME

/-- The search ends and agrees with the path, and where the path leads to a file
`open` returns it. -/
def PathFound (vfs : Vfs) (path : Nat → Byte) (dir : Nat) (text : List Byte) : Prop :=
  ∀ r,
    (∃ enough result,
      (∀ fuel, enough ≤ fuel → vfs.recurseDirectories path fuel 0 dir r = some result) ∧
      Agrees result (vfs.resolve dir (text.splitOn slash))) ∧
    ∀ f, vfs.resolve dir (text.splitOn slash) = .found f →
      ∃ enough r', r'.index = f ∧
        ∀ fuel, enough ≤ fuel → vfs.openFile path fuel dir r = some (some f, r')

section Strings

/-- The text of a name that is a string. -/
theorem takeWhile_of_stringAt
    {name : Nat → Byte} {text : List Byte} {start n : Nat}
    (h : StringAt name start text)
    (hlength : text.length < n) :
    ((List.range' start n).map name).takeWhile (· ≠ 0) = text := by
  induction text generalizing start n with
  | nil =>
      obtain ⟨n, rfl⟩ : ∃ m, n = m + 1 := ⟨n - 1, by simp at hlength; omega⟩
      have hzero : name start = 0 := h
      simp [List.range'_succ, hzero]
  | cons b text ih =>
      obtain ⟨n, rfl⟩ : ∃ m, n = m + 1 := ⟨n - 1, by simp at hlength; omega⟩
      obtain ⟨rfl, hb, hrest⟩ := h
      have hlength' : text.length < n := by simpa using hlength
      rw [List.range'_succ, List.map_cons, List.takeWhile_cons_of_pos (by simpa using hb),
        ih hrest hlength']

end Strings

section Search

variable {vfs : Vfs} {path : Nat → Byte} {text : List Byte} {dir : Nat}
  {recurse : Nat → Nat → Reached → Option (Nat × Reached)}

section Characters

variable {start test o fuel : Nat} {r : Reached}

/-- Characters that differ send the loop to the next child. -/
theorem nameLoop_of_ne
    (hne : path (start + o) ≠ (vfs.descriptions test).data.name o) :
    vfs.nameLoop path recurse start test (fuel + 1) o r = some (none, r) := by
  rw [Vfs.nameLoop, if_pos hne]

/-- Both end together: the child is found. -/
theorem nameLoop_of_end
    (heq : path (start + o) = (vfs.descriptions test).data.name o)
    (hzero : path (start + o) = 0) :
    vfs.nameLoop path recurse start test (fuel + 1) o r =
      some (some 0, ⟨start + o, test / vfs.sizeofFile⟩) := by
  rw [Vfs.nameLoop, if_neg (not_not.mpr heq), if_pos hzero]

/-- The same character, which is not a slash. -/
theorem nameLoop_of_eq
    (heq : path (start + o) = (vfs.descriptions test).data.name o)
    (hzero : path (start + o) ≠ 0)
    (hslash : path (start + o) ≠ slash) :
    vfs.nameLoop path recurse start test (fuel + 1) o r =
      vfs.nameLoop path recurse start test fuel (o + 1) r := by
  rw [Vfs.nameLoop, if_neg (not_not.mpr heq), if_neg hzero, if_neg hslash]

end Characters

/-- Comparing the rest of the path with a name without a slash. -/
theorem nameLoop_eq
    {start test o fuel : Nat} {name : List Byte}
    (hpath : StringAt path (start + o) text)
    (hname : StringAt (vfs.descriptions test).data.name o name)
    (hslash : slash ∉ name)
    (hfuel : text.length < fuel)
    (r : Reached) :
    vfs.nameLoop path recurse start test fuel o r =
      if name = text then some (some 0, ⟨start + o + text.length, test / vfs.sizeofFile⟩)
      else some (none, r) := by
  induction text generalizing o name fuel with
  | nil =>
      obtain ⟨fuel, rfl⟩ : ∃ m, fuel = m + 1 := ⟨fuel - 1, by simp at hfuel; omega⟩
      have hpath' : path (start + o) = 0 := hpath
      cases name with
      | nil =>
          have hname' : (vfs.descriptions test).data.name o = 0 := hname
          exact nameLoop_of_end (hpath'.trans hname'.symm) hpath'
      | cons b name =>
          obtain ⟨hb, hb0, _⟩ := hname
          rw [if_neg (List.cons_ne_nil b name)]
          refine nameLoop_of_ne ?_
          rw [hpath', hb]
          exact hb0.symm
  | cons a text ih =>
      obtain ⟨fuel, rfl⟩ : ∃ m, fuel = m + 1 := ⟨fuel - 1, by simp at hfuel; omega⟩
      obtain ⟨ha, ha0, hpath'⟩ := hpath
      cases name with
      | nil =>
          have hname' : (vfs.descriptions test).data.name o = 0 := hname
          rw [if_neg (List.cons_ne_nil a text).symm]
          refine nameLoop_of_ne ?_
          rw [ha, hname']
          exact ha0
      | cons b name =>
          obtain ⟨hb, hb0, hname'⟩ := hname
          by_cases hab : b = a
          · subst hab
            have hnoslash : b ≠ slash := fun h => hslash (h ▸ List.mem_cons_self)
            have hpath'' : StringAt path (start + (o + 1)) text := by
              simpa [Nat.add_assoc] using hpath'
            have hfuel' : text.length < fuel := by simpa using hfuel
            have hrest := ih hpath'' hname' (fun h => hslash (List.mem_cons_of_mem _ h)) hfuel'
            rw [nameLoop_of_eq (ha.trans hb.symm) (ha ▸ ha0) (ha ▸ hnoslash), hrest]
            simp only [List.cons.injEq, true_and, List.length_cons]
            have hlength : start + (o + 1) + text.length = start + o + (text.length + 1) := by
              omega
            rw [hlength]
          · rw [if_neg (fun h => hab (List.cons.inj h).1)]
            refine nameLoop_of_ne ?_
            rw [ha, hb]
            exact Ne.symm hab

/-- What the loop over the children returns, by the live child that was found. -/
def Vfs.searchResult (vfs : Vfs) (text : List Byte) (r : Reached) : Option Nat → Nat × Reached
  | some f => (0, ⟨text.length, f / vfs.sizeofFile⟩)
  | none => (NO_MATCHING_FILENAME, r)

theorem liveEntries_succ (i left : Nat) :
    vfs.liveEntries dir i (left + 1) =
      if (vfs.descriptions dir).children.ckarray i = 0 then vfs.liveEntries dir (i + 1) left
      else (vfs.descriptions dir).entries i :: vfs.liveEntries dir (i + 1) left := by
  unfold Vfs.liveEntries
  rw [List.range'_succ, List.filter_cons]
  split_ifs with hlive hfree hfree <;> simp_all

/-- The loop over the children finds the first of them that has the whole path for
its name. -/
theorem childLoop_eq
    {i left fuel : Nat}
    (hpath : StringAt path 0 text)
    (hnames : ∀ f, f ∈ vfs.liveEntries dir i left →
      ∃ name, StringAt (vfs.descriptions f).data.name 0 name ∧
        name.length < Syscalls.sizeofName ∧ slash ∉ name)
    (hfuel : text.length < fuel)
    (r : Reached) :
    vfs.childLoop path recurse fuel 0 dir left i r =
      some (vfs.searchResult text r ((vfs.liveEntries dir i left).find?
        fun f => nameText (vfs.descriptions f).data.name = text)) := by
  induction left generalizing i with
  | zero => rfl
  | succ left ih =>
      rw [Vfs.childLoop]
      rw [liveEntries_succ] at hnames ⊢
      split_ifs at hnames ⊢ with hfree
      · exact ih hnames
      · obtain ⟨name, hname, hlength, hslash⟩ := hnames _ (List.mem_cons_self ..)
        have htext : nameText (vfs.descriptions ((vfs.descriptions dir).entries i)).data.name =
            name := takeWhile_of_stringAt hname hlength
        have hrest := ih fun f hf => hnames f (List.mem_cons_of_mem _ hf)
        rw [nameLoop_eq (by simpa using hpath) hname hslash hfuel, List.find?_cons, htext]
        by_cases heq : name = text
        · simp [heq, Vfs.searchResult]
        · simp [heq, hrest]

/-- **The search compares the whole path with the names of the children.** -/
theorem recurseDirectories_eq
    {fuel : Nat}
    (hpath : StringAt path 0 text)
    (hnames : vfs.WellNamed dir)
    (hfuel : text.length + 2 ≤ fuel)
    (r : Reached) :
    vfs.recurseDirectories path fuel 0 dir r =
      some (vfs.searchResult text r (vfs.childNamed dir text)) := by
  obtain ⟨fuel, rfl⟩ : ∃ m, fuel = m + 1 := ⟨fuel - 1, by omega⟩
  exact childLoop_eq hpath hnames (by omega) r

/-- No child has a name with a slash. -/
theorem childNamed_of_slash
    (hnames : vfs.WellNamed dir)
    (hslash : slash ∈ text) :
    vfs.childNamed dir text = none := by
  rw [Vfs.childNamed, List.find?_eq_none]
  intro f hf hname
  obtain ⟨name, hstring, hlength, hnoslash⟩ := hnames f hf
  have htext : nameText (vfs.descriptions f).data.name = name :=
    takeWhile_of_stringAt hstring hlength
  rw [decide_eq_true_eq, htext] at hname
  exact hnoslash (hname ▸ hslash)

/-- A path of one component is looked up among the children. -/
theorem resolve_of_not_slash
    (vfs : Vfs) (dir : Nat)
    (hslash : slash ∉ text) :
    vfs.resolve dir (text.splitOn slash) =
      match vfs.childNamed dir text with
      | none => .noMatching
      | some f => .found f := by
  rw [List.splitOn_eq_singleton hslash, Vfs.resolve]
  cases vfs.childNamed dir text <;> rfl

/-- What `open` returns is the file whose slot is the error code. -/
theorem openFile_eq
    {fuel : Nat}
    (hpath : StringAt path 0 text)
    (hnames : vfs.WellNamed dir)
    (hfuel : text.length + 2 ≤ fuel)
    (r : Reached) :
    vfs.openFile path fuel dir r =
      if vfs.pool.ckarray dir = 0 then some (none, r)
      else some (some (vfs.searchResult text r (vfs.childNamed dir text)).1,
        (vfs.searchResult text r (vfs.childNamed dir text)).2) := by
  rw [Vfs.openFile, recurseDirectories_eq hpath hnames hfuel]

/-- A search that ends for all fuels from `n` on has one result. -/
theorem ends_iff
    {α : Type} {run : Nat → Option α} {value : α} {n : Nat} {P : α → Prop}
    (hrun : ∀ fuel, n ≤ fuel → run fuel = some value) :
    (∃ enough result, (∀ fuel, enough ≤ fuel → run fuel = some result) ∧ P result) ↔ P value := by
  constructor
  · rintro ⟨enough, result, hresult, hP⟩
    have heq := hresult (max enough n) (Nat.le_max_left ..)
    rw [hrun _ (Nat.le_max_right ..)] at heq
    cases heq
    exact hP
  · exact fun hP => ⟨n, value, hrun, hP⟩

/-- `open` returns the file `f` when the directory is live and the search says `f` twice. -/
theorem opened_iff
    (hpath : StringAt path 0 text)
    (hnames : vfs.WellNamed dir)
    (r : Reached) (f : Nat) :
    (∃ enough r', r'.index = f ∧
        ∀ fuel, enough ≤ fuel → vfs.openFile path fuel dir r = some (some f, r')) ↔
      vfs.pool.ckarray dir ≠ 0 ∧ (vfs.searchResult text r (vfs.childNamed dir text)).1 = f ∧
        (vfs.searchResult text r (vfs.childNamed dir text)).2.index = f := by
  constructor
  · rintro ⟨enough, r', hindex, hopen⟩
    have heq := hopen (max enough (text.length + 2)) (Nat.le_max_left ..)
    rw [openFile_eq hpath hnames (Nat.le_max_right ..)] at heq
    split_ifs at heq with hdead
    · cases heq
    · obtain ⟨hcode, hreached⟩ := Prod.mk.inj (Option.some.inj heq)
      exact ⟨hdead, Option.some.inj hcode, hreached ▸ hindex⟩
  · rintro ⟨hlive, hcode, hindex⟩
    refine ⟨text.length + 2, _, hindex, fun fuel hfuel => ?_⟩
    rw [openFile_eq hpath hnames hfuel, if_neg hlive, hcode]

/-- What is found, by the child that has the whole path for its name. -/
theorem pathFound_iff_search
    (hpath : StringAt path 0 text)
    (hnames : vfs.WellNamed dir) :
    PathFound vfs path dir text ↔
      ∀ r, Agrees (vfs.searchResult text r (vfs.childNamed dir text))
          (vfs.resolve dir (text.splitOn slash)) ∧
        ∀ f, vfs.resolve dir (text.splitOn slash) = .found f →
          vfs.pool.ckarray dir ≠ 0 ∧ (vfs.searchResult text r (vfs.childNamed dir text)).1 = f ∧
            (vfs.searchResult text r (vfs.childNamed dir text)).2.index = f := by
  refine forall_congr' fun r => and_congr ?_ (forall₂_congr fun f _ => opened_iff hpath hnames r f)
  exact ends_iff fun fuel hfuel => recurseDirectories_eq hpath hnames hfuel r

/-- A search without a result is right when the path leads nowhere. -/
theorem agrees_none_iff
    (r : Reached) (resolution : Resolution) :
    Agrees (vfs.searchResult text r none) resolution ↔ resolution = .noMatching := by
  cases resolution with
  | found f =>
      refine iff_of_false ?_ Resolution.noConfusion
      rintro ⟨hcode, -⟩
      exact absurd hcode (show NO_MATCHING_FILENAME ≠ 0 by decide)
  | notaDir =>
      have hcode : NO_MATCHING_FILENAME ≠ NOTA_DIR := by decide
      exact iff_of_false hcode Resolution.noConfusion
  | noMatching => exact iff_of_true rfl rfl

end Search

/--
**A path is followed right exactly when some component of it does not exist, or it is
the name of a child that is file number 0.**
-/
theorem path_found_iff
    {vfs : Vfs} {path : Nat → Byte} {text : List Byte} {dir : Nat}
    (hpath : StringAt path 0 text)
    (hnames : vfs.WellNamed dir) :
    PathFound vfs path dir text ↔
      vfs.resolve dir (text.splitOn slash) = .noMatching ∨
        (slash ∉ text ∧ vfs.childNamed dir text = some 0 ∧ vfs.pool.ckarray dir ≠ 0) := by
  rw [pathFound_iff_search hpath hnames]
  cases hchild : vfs.childNamed dir text with
  | none =>
      constructor
      · intro hfound
        exact Or.inl ((agrees_none_iff ⟨0, 0⟩ _).mp (hfound ⟨0, 0⟩).1)
      · rintro (hmissing | ⟨-, hzero, -⟩) r
        · rw [hmissing]
          refine ⟨(agrees_none_iff r _).mpr rfl, ?_⟩
          rintro f ⟨⟩
        · cases hzero
  | some f =>
      have hslash : slash ∉ text := by
        intro hslash
        rw [childNamed_of_slash hnames hslash] at hchild
        cases hchild
      have hresolve : vfs.resolve dir (text.splitOn slash) = .found f := by
        rw [resolve_of_not_slash vfs dir hslash, hchild]
      rw [hresolve]
      constructor
      · intro hfound
        obtain ⟨hlive, hzero, -⟩ := (hfound ⟨0, 0⟩).2 f rfl
        exact Or.inr ⟨hslash, congrArg some hzero.symm, hlive⟩
      · rintro (hmissing | ⟨-, hzero, hlive⟩) r
        · cases hmissing
        · obtain rfl := Option.some.inj hzero
          have hindex : (vfs.searchResult text r (some 0)).2.index = 0 := Nat.zero_div _
          refine ⟨⟨rfl, hindex⟩, ?_⟩
          rintro f ⟨⟩
          exact ⟨hlive, rfl, hindex⟩

/-- A directory with one live child, the file 1 of the name `a`; it is a directory
too, with the file 2 of the name `b` for its child. -/
def nestedFiles : Vfs where
  pool := ⟨.POINTER, 3, 3, fun _ => 255, 4096, 8⟩
  descriptions := fun k =>
    { data :=
        { name := fun i => if i = 0 then 96 + BitVec.ofNat 8 k else 0
          type := DIRECTORY, mode := 0, partition := 0, relpos := 0, length := 0 }
      parent := if k = 0 then 100 else k - 1
      double_link := 4096
      children := ⟨.POINTER, if k < 2 then 1 else 0, if k < 2 then 1 else 0, fun _ => 255, 4096, 8⟩
      entries := fun _ => k + 1
      listeners := 0 }
  null := 100
  sizeofFile := 256

theorem nestedFiles_wellNamed :
    nestedFiles.WellNamed 0 := by
  intro f hf
  have hone : nestedFiles.liveChildren 0 = [1] := by decide
  rw [hone, List.mem_singleton] at hf
  subst hf
  exact ⟨[97], ⟨by decide, by decide, rfl⟩, by decide, by decide⟩

/-- `b` is not a child of the directory, and is not found. -/
theorem path_found_iff_missing :
    PathFound nestedFiles (fun i => if i = 0 then 98 else 0) 0 [98] ↔
      nestedFiles.resolve 0 ([98].splitOn slash) = .noMatching ∨
        (slash ∉ [98] ∧ nestedFiles.childNamed 0 [98] = some 0 ∧
          nestedFiles.pool.ckarray 0 ≠ 0) :=
  path_found_iff ⟨rfl, by decide, rfl⟩ nestedFiles_wellNamed

/-- `a/b` names the file 2 and is not found. -/
theorem nested_path_not_found :
    nestedFiles.resolve 0 ([97, slash, 98].splitOn slash) = .found 2 ∧
      ¬ PathFound nestedFiles (fun i => [97, slash, 98].getD i 0) 0 [97, slash, 98] := by
  have hresolve : nestedFiles.resolve 0 ([97, slash, 98].splitOn slash) = .found 2 := by decide
  refine ⟨hresolve, ?_⟩
  intro hfound
  have hpath : StringAt (fun i => [97, slash, 98].getD i 0) 0 [97, slash, 98] :=
    ⟨rfl, by decide, rfl, by decide, rfl, by decide, rfl⟩
  have hagrees := ((pathFound_iff_search hpath nestedFiles_wellNamed).mp hfound ⟨0, 0⟩).1
  rw [childNamed_of_slash nestedFiles_wellNamed (by simp), agrees_none_iff, hresolve] at hagrees
  cases hagrees

end Filesystem
end BestKernel
