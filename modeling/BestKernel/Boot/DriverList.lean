import BestKernel.Library.Loops
import BestKernel.Library.Words
import Mathlib.Data.List.Forall2
import Mathlib.Tactic.Common

/-!
# The list of drivers

`driv.cf` names a driver on each line, up to a newline or a `#`, and ends with an empty
line.  `get_drivers_number` counts the names, and `load_drivers` loads them.  Both are
scanners with three phases: in front of a line, in its name, and in the rest of it.

The end of a name is looked for in the buffer, not in the text.  Where it is found depends
on what the buffer held.  The prefix is a number that is assigned to one character, so that
the buffer begins with `s` (`Loader.Begun`), and no name is ever loaded as it should be.
`drivers_right_iff` says that the two agree when there is no line and in no other case.

Readings of the source.  `string` is a buffer in `get_drivers_number` too.  The test against
`image_size` is a comparison, and `shutdown` does not return.  `uefi_loadfile` reads the
path and does not write to it.
-/

namespace BestKernel
namespace Boot

open Machine

/-- The characters `\n` and `#`. -/
abbrev newline : Byte := 0x0A

abbrev pound : Byte := 0x23

/-- Where a scanner stands. -/
inductive Phase where
  | list
  | name
  | rest
deriving DecidableEq, Repr

/-- The inner loops go on while the character of the buffer is neither of the two. -/
def goesOn (x : Byte) : Prop := x ≠ newline ∧ x ≠ pound

instance (x : Byte) : Decidable (goesOn x) := by
  unfold goesOn
  infer_instance

/-- `drivername[j]`, counted from the start of the buffer. -/
def nameOffset (j : Half) : Nat := 8 + j.toNat

section Number

/-- The state of `get_drivers_number`, with the positions read from the text and written to
the buffer. -/
structure Counter where
  phase : Phase
  k : Half
  j : Half
  ret : Half
  string : Nat → Byte
  reads : List Nat
  writes : List Nat

variable (config : Nat → Byte)

def numberRound (s : Counter) : Counter ⊕ Counter :=
  let read := { s with reads := s.reads ++ [s.k.toNat] }
  match s.phase with
  | .list =>
      if config s.k.toNat ≠ newline then .inl { read with phase := .name, j := 0 }
      else .inr read
  | .name =>
      if goesOn (s.string (nameOffset s.j)) then
        .inl { read with
          string := Function.update s.string (nameOffset s.j) (config s.k.toNat)
          writes := s.writes ++ [nameOffset s.j]
          j := s.j + 1 }
      else .inl { s with phase := .rest, ret := s.ret + 1 }
  | .rest =>
      if config s.k.toNat ≠ newline then .inl { read with k := s.k + 1 }
      else .inl { read with phase := .list, k := s.k + 1 }

/-- `get_drivers_number`, with a buffer. -/
def getDriversNumber (string : Nat → Byte) (fuel : Nat) : Option Counter :=
  Loops.run (numberRound config) fuel ⟨.list, 0, 0, 0, string, [], []⟩

end Number

section Loading

/-- The state of `load_drivers`: besides the positions, the slots of the two arrays that are
written, each with the buffer at the call of `uefi_loadfile`. -/
structure Loader where
  phase : Phase
  k : Half
  j : Half
  driver_cnt : Half
  string : Nat → Byte
  driver_pointers : List (Half × (Nat → Byte))
  info_pointers : List (Half × (Nat → Byte))
  reads : List Nat
  writes : List Nat

/-- Write a number of eight bytes to the buffer. -/
def storeNumber (string : Nat → Byte) (offset : Nat) (value : Word) : Nat → Byte :=
  fun i => if offset ≤ i ∧ i < offset + 8 then (value >>> (8 * (i - offset))).setWidth 8
    else string i

/-- `load_drivers` behind the end of a name: the driver is loaded, and its info file. -/
def Loader.load (s : Loader) : Loader :=
  let j := s.j + 1
  let string := Function.update s.string (nameOffset j) 0
  let driver_cnt := s.driver_cnt + 1
  let info := storeNumber string (nameOffset j) 0x2E696E666F
  { s with
    phase := .rest
    j := j
    driver_cnt := driver_cnt
    string := info
    driver_pointers := s.driver_pointers ++ [(s.driver_cnt, string)]
    info_pointers := s.info_pointers ++ [(driver_cnt, info)]
    writes := s.writes ++ (List.range 8).map (nameOffset j + ·) }

/-- What `load_drivers` comes to. -/
inductive Loaded where
  | returned (s : Loader)
  | shutdown

variable (drivconf : Nat → Byte) (image_size : Word)

def loadRound (s : Loader) : Loader ⊕ Loaded :=
  let read := { s with reads := s.reads ++ [s.k.toNat] }
  match s.phase with
  | .list =>
      if drivconf s.k.toNat ≠ newline then .inl { read with phase := .name, j := 0 }
      else .inr (.returned read)
  | .name =>
      if goesOn (s.string (nameOffset s.j)) then
        .inl { read with
          string := Function.update s.string (nameOffset s.j) (drivconf s.k.toNat)
          writes := s.writes ++ [nameOffset s.j]
          j := s.j + 1
          k := s.k + 1 }
      else .inl s.load
  | .rest =>
      if drivconf s.k.toNat ≠ newline then .inl { read with k := s.k + 1 }
      else if image_size < s.k.setWidth 64 then .inr .shutdown
      else .inl { read with phase := .list, k := s.k + 1 }

/-- The prefix, as far as it fits into a character. -/
def startOfPath : Byte := (0x2F64726976657273 : Word).setWidth 8

/-- `load_drivers`, with what the buffer held before. -/
def loadDrivers (string : Nat → Byte) (fuel : Nat) : Option Loaded :=
  Loops.run (loadRound drivconf image_size) fuel
    ⟨.list, 0, 0, 0, Function.update string 0 startOfPath, [], [], [], [0]⟩

end Loading

section Specification

/-- A line of the list: a name, and a comment up to the end of the line. -/
structure Line where
  name : List Byte
  comment : Option (List Byte)
  short : name.length ≤ 56
  plain : ∀ x, x ∈ name → goesOn x
  ended : ∀ text, comment = some text → newline ∉ text
  some_text : name = [] → comment ≠ none

/-- The line as text. -/
def Line.text (line : Line) : List Byte :=
  line.name ++ (line.comment.elim [] (pound :: ·)) ++ [newline]

/-- The whole list as text, with the empty line at its end. -/
def textOf (lines : List Line) : List Byte :=
  lines.flatMap Line.text ++ [newline]

/-- The names of the drivers; a line of nothing but a comment has none. -/
def namesOf (lines : List Line) : List (List Byte) :=
  (lines.map Line.name).filter (· ≠ [])

/-- The configuration begins with the text of the lines. -/
def Documented (lines : List Line) (config : Nat → Byte) : Prop :=
  ∀ i, ∀ hi : i < (textOf lines).length, config i = (textOf lines)[i]

/-- `/drivers`. -/
def directory : List Byte := [0x2F, 0x64, 0x72, 0x69, 0x76, 0x65, 0x72, 0x73]

/-- The buffer holds a string. -/
def Holds (string : Nat → Byte) (path : List Byte) : Prop :=
  (∀ i, ∀ hi : i < path.length, string i = path[i]) ∧ string path.length = 0

variable (lines : List Line) (config : Nat → Byte)

structure NumberRight (s : Counter) : Prop where
  ret : s.ret.toNat = (namesOf lines).length
  reads : ∀ k, k ∈ s.reads → k < (textOf lines).length
  writes : ∀ i, i ∈ s.writes → i < 64

structure LoadRight (s : Loader) : Prop where
  loaded : List.Forall₂ (fun name (entry : Half × (Nat → Byte)) =>
    Holds entry.2 (directory ++ name)) (namesOf lines) s.driver_pointers
  drivers : s.driver_pointers.map (·.1.toNat) = List.range (namesOf lines).length
  infos : s.info_pointers.map (·.1.toNat) = List.range (namesOf lines).length
  reads : ∀ k, k ∈ s.reads → k < (textOf lines).length
  writes : ∀ i, i ∈ s.writes → i < 64

/-- Counting and loading end, and agree on the names of the lines. -/
def DriversRight (image_size : Word) (counted loaded : Nat → Byte) : Prop :=
  (∃ fuel s, getDriversNumber config counted fuel = some s ∧ NumberRight lines s) ∧
    ∃ fuel s, loadDrivers config image_size loaded fuel = some (.returned s) ∧
      LoadRight lines s

end Specification

section Begun

variable {drivconf : Nat → Byte} {image_size : Word} {s s' : Loader}

/-- What stays of the first character: the buffer begins with it, also in the paths that are
loaded, the slots of the info files are one too high, and a line that has been begun is
loaded. -/
structure Loader.Begun (drivconf : Nat → Byte) (s : Loader) : Prop where
  first : s.string 0 = startOfPath
  paths : ∀ entry, entry ∈ s.driver_pointers → entry.2 0 = startOfPath
  slots : s.info_pointers.map (·.1) = s.driver_pointers.map (·.1 + 1)
  progress : s.driver_pointers ≠ [] ∨ s.phase = .list ∧ s.k = 0 ∨
    s.phase = .name ∧ drivconf 0 ≠ newline

theorem Loader.Begun.load
    (h : s.Begun drivconf) :
    s.load.Begun drivconf := by
  have hoffset : ∀ j, 0 ≠ nameOffset j := fun j => by
    unfold nameOffset
    omega
  have hstring : Function.update s.string (nameOffset (s.j + 1)) 0 0 = startOfPath :=
    (Function.update_of_ne (hoffset _) _ _).trans h.first
  refine ⟨?_, ?_, ?_, .inl (by simp [Loader.load])⟩
  · have hlow : ¬ nameOffset (s.j + 1) ≤ 0 := fun hle => hoffset _ (Nat.le_zero.1 hle).symm
    exact (if_neg fun hin => hlow hin.1).trans hstring
  · intro entry hentry
    rcases List.mem_append.1 hentry with hold | hnew
    · exact h.paths entry hold
    · cases List.mem_singleton.1 hnew
      exact hstring
  · simp only [Loader.load, List.map_append, h.slots, List.map_cons, List.map_nil]

/-- One round keeps it. -/
theorem loadRound_begun
    (h : s.Begun drivconf)
    (hround : loadRound drivconf image_size s = .inl s') :
    s'.Begun drivconf := by
  unfold loadRound at hround
  cases hphase : s.phase with
  | list =>
      simp only [hphase] at hround
      split_ifs at hround with hline
      cases hround
      refine ⟨h.first, h.paths, h.slots, h.progress.imp_right fun hbegun => .inr ⟨rfl, ?_⟩⟩
      rcases hbegun with ⟨-, hzero⟩ | ⟨-, hnonempty⟩
      · rwa [hzero] at hline
      · exact hnonempty
  | name =>
      simp only [hphase] at hround
      split_ifs at hround with hgoes
      · cases hround
        have hne : 0 ≠ nameOffset s.j := by
          unfold nameOffset
          omega
        refine ⟨(Function.update_of_ne hne _ _).trans h.first, h.paths, h.slots, ?_⟩
        refine h.progress.imp_right fun hbegun => .inr ⟨rfl, ?_⟩
        rcases hbegun with ⟨hlist, -⟩ | ⟨-, hnonempty⟩
        · exact absurd (hphase.symm.trans hlist) (by decide)
        · exact hnonempty
      · cases hround
        exact h.load
  | rest =>
      have hsome : s.driver_pointers ≠ [] := by
        rcases h.progress with hsome | ⟨hlist, -⟩ | ⟨hname, -⟩
        · exact hsome
        · exact absurd (hphase.symm.trans hlist) (by decide)
        · exact absurd (hphase.symm.trans hname) (by decide)
      simp only [hphase] at hround
      split_ifs at hround with hline hsize
      · cases hround
        exact ⟨h.first, h.paths, h.slots, .inl hsome⟩
      · cases hround
        exact ⟨h.first, h.paths, h.slots, .inl hsome⟩

/-- What is known when `load_drivers` returns: no path begins with a slash, the slots of the
info files are one too high, and something was loaded if there is a line. -/
structure Loader.Spoilt (drivconf : Nat → Byte) (s : Loader) : Prop where
  paths : ∀ entry, entry ∈ s.driver_pointers → entry.2 0 = startOfPath
  slots : s.info_pointers.map (·.1) = s.driver_pointers.map (·.1 + 1)
  nothing : s.driver_pointers = [] → drivconf 0 = newline

theorem loadRound_returned
    (h : s.Begun drivconf)
    (hround : loadRound drivconf image_size s = .inr (.returned s')) :
    s'.Spoilt drivconf := by
  unfold loadRound at hround
  cases hphase : s.phase with
  | list =>
      simp only [hphase] at hround
      split_ifs at hround with hline
      cases hround
      refine ⟨h.paths, h.slots, fun hnil => ?_⟩
      rcases h.progress with hsome | ⟨-, hzero⟩ | ⟨hname, -⟩
      · exact absurd hnil hsome
      · rw [hzero] at hline
        exact not_not.1 hline
      · exact absurd (hphase.symm.trans hname) (by decide)
  | name =>
      simp only [hphase] at hround
      split_ifs at hround
  | rest =>
      simp only [hphase] at hround
      split_ifs at hround
      cases hround

/-- **Whatever the text, `load_drivers` comes to paths without their first character.** -/
theorem loadDrivers_returned
    {string : Nat → Byte} {fuel : Nat}
    (h : loadDrivers drivconf image_size string fuel = some (.returned s)) :
    s.Spoilt drivconf := by
  refine Loops.run_invariant (I := Loader.Begun drivconf)
    (Q := fun r => ∀ s, r = .returned s → s.Spoilt drivconf)
    (fun _ _ hs hround => loadRound_begun hs hround) ?_ ?_ h s rfl
  · rintro s r hs hround s' rfl
    exact loadRound_returned hs hround
  · have hfirst : Function.update string 0 startOfPath 0 = startOfPath := by
      rw [Function.update_self]
    exact ⟨hfirst, fun entry hentry => absurd hentry List.not_mem_nil, rfl,
      .inr (.inl ⟨rfl, rfl⟩)⟩

end Begun

section Right

variable {lines : List Line} {config : Nat → Byte}

/-- The text of a line does not begin with a newline. -/
theorem Line.text_head
    (line : Line) :
    ∃ x text, line.text = x :: text ∧ x ≠ newline := by
  obtain ⟨name, comment, hshort, hplain, hended, hsome⟩ := line
  cases name with
  | nil =>
      cases comment with
      | none => exact absurd rfl (hsome rfl)
      | some text => exact ⟨pound, text ++ [newline], rfl, by decide⟩
  | cons x name => exact ⟨x, _, rfl, (hplain x List.mem_cons_self).1⟩

theorem documented_newline_iff
    (h : Documented lines config) :
    config 0 = newline ↔ lines = [] := by
  cases lines with
  | nil => exact ⟨fun _ => rfl, fun _ => h 0 (by decide)⟩
  | cons line lines =>
      obtain ⟨x, text, htext, hx⟩ := line.text_head
      have hfirst : textOf (line :: lines) = x :: (text ++ textOf lines) := by
        rw [textOf, List.flatMap_cons, htext]
        simp [textOf]
      have hconfig : config 0 = x := by
        rw [h 0 (by rw [hfirst]; exact Nat.succ_pos _)]
        simp only [hfirst, List.getElem_cons_zero]
      rw [hconfig]
      exact ⟨fun hnewline => absurd hnewline hx, fun hnil => absurd hnil (List.cons_ne_nil _ _)⟩

/-- A path without its first character is not right. -/
theorem LoadRight.nothing_loaded
    {s : Loader}
    (h : LoadRight lines s)
    (hspoilt : s.Spoilt config) :
    s.driver_pointers = [] := by
  cases hpointers : s.driver_pointers with
  | nil => rfl
  | cons entry rest =>
      have hloaded := h.loaded
      rw [hpointers] at hloaded
      have hpath := hspoilt.paths entry (by rw [hpointers]; exact List.mem_cons_self)
      obtain ⟨name, names, hholds, -, -⟩ := List.forall₂_cons_right_iff.1 hloaded
      have hslash : entry.2 0 = 0x2F := hholds.1 0 (Nat.succ_pos _)
      exact absurd (hpath.symm.trans hslash) (by decide)

/-- **Counting and loading agree when there is no line, and in no other case.** -/
theorem drivers_right_iff
    (h : Documented lines config)
    (image_size : Word)
    (counted loaded : Nat → Byte) :
    DriversRight lines config image_size counted loaded ↔ lines = [] := by
  constructor
  · rintro ⟨-, fuel, s, hrun, hright⟩
    have hspoilt := loadDrivers_returned hrun
    exact (documented_newline_iff h).1 (hspoilt.nothing (hright.nothing_loaded hspoilt))
  · rintro rfl
    have hnewline : config 0 = newline := (documented_newline_iff h).2 rfl
    have hreads : ∀ k, k ∈ [0] → k < (textOf []).length := by decide
    have hwrites : ∀ i, i ∈ [0] → i < 64 := by decide
    refine ⟨⟨1, ⟨.list, 0, 0, 0, counted, [0], []⟩, ?_, ?_⟩,
      ⟨1, ⟨.list, 0, 0, 0, Function.update loaded 0 startOfPath, [], [], [0], [0]⟩, ?_, ?_⟩⟩
    · refine Loops.run_exit ?_ 0
      simp [numberRound, hnewline]
    · exact ⟨rfl, hreads, fun i hi => absurd hi List.not_mem_nil⟩
    · refine Loops.run_exit ?_ 0
      simp [loadRound, hnewline]
    · exact ⟨.nil, rfl, rfl, hreads, hwrites⟩

end Right

/-- One driver, `a`, without a comment. -/
def oneLine : Line where
  name := [0x61]
  comment := none
  short := by decide
  plain := by decide
  ended := by rintro text ⟨⟩
  some_text := by decide

/-- Its text. -/
def oneText (i : Nat) : Byte := (textOf [oneLine]).getD i 0

theorem oneText_documented : Documented [oneLine] oneText :=
  fun _ _ => (List.getElem_eq_getD 0).symm

/-- It is not loaded from a buffer of newlines. -/
theorem one_driver_spoilt :
    Documented [oneLine] oneText ∧
      ¬ DriversRight [oneLine] oneText 4096 (fun _ => newline) (fun _ => newline) := by
  refine ⟨oneText_documented, ?_⟩
  rintro ⟨-, fuel, s, hrun, hright⟩
  have hspoilt := loadDrivers_returned hrun
  exact absurd (hspoilt.nothing (hright.nothing_loaded hspoilt)) (by decide)

/-- An empty list is loaded from a buffer of newlines, and that of one driver is not. -/
theorem drivers_right_iff_newlines :
    DriversRight [] (fun _ => newline) 1 (fun _ => newline) (fun _ => newline) ∧
      ¬ DriversRight [oneLine] oneText 4096 (fun _ => newline) (fun _ => newline) := by
  have hempty : Documented [] (fun _ => newline) := by
    intro i hi
    obtain rfl : i = 0 := Nat.lt_one_iff.1 hi
    rfl
  refine ⟨(drivers_right_iff hempty 1 _ _).mpr rfl, fun hone => ?_⟩
  exact absurd ((drivers_right_iff oneText_documented 4096 _ _).mp hone) (List.cons_ne_nil _ _)

end Boot
end BestKernel
