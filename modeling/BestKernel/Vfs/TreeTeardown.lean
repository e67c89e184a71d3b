import BestKernel.Vfs.Calls

/-!
# Tearing a page tree down

`recursive_free` is to visit every table of a tree once, and to give back what the
entries in use hold.  Here it runs with a record of what it does, `recursiveFreeLogged`,
and `recorded` is the record that it should leave, for the tree as it stands when the
process is killed: bits 9 to 11 tell the mode, and the table below a directory is another
one than the root.

It descends to the entry instead of the table below, and it takes the mode from bits 0 to
8.  So it is right only where there is nothing to descend to and nothing to give back
(`tree_teardown_iff`).
-/

namespace BestKernel
namespace Vfs

open Machine Mem

/-- What a teardown does. -/
inductive TeardownEvent where
  /-- A table is visited. -/
  | visit (pagetype : Nat) (table : Word)
  /-- A frame is handed to `manipulate_phys`. -/
  | free (phys : Word)
  /-- A listener of a page goes. -/
  | drop (findex page : Nat)
deriving DecidableEq

section Record

variable (p : Process)

/-- What the switch of `recursive_free` does about the entry at `a`. -/
def freeEvents (pagetype : Nat) (a : Word) (s : Trees) : List TeardownEvent :=
  let entry := s.words a
  if freeMode entry = Mode.RESERVE.code.setWidth 64 then
    (memFree s.words p.pagetree (entrytoVm p.pagetree a) 1 pagetype).2.1.map .free
  else if freeMode entry = Mode.FILE.code.setWidth 64 then
    match recursiveFreePage (s.files (entryFile p entry)) entry with
    | some k => [.drop (entryFile p entry) k]
    | none => []
  else []

/-- A teardown under way, with what it has done. -/
structure Logged where
  trees : Trees
  events : List TeardownEvent

def freeEntryLogged (pagetype : Nat) (a : Word) (t : Logged) : Logged :=
  ⟨freeEntry p pagetype a t.trees, t.events ++ freeEvents p pagetype a t.trees⟩

/-- A table is visited. -/
def Logged.visit (t : Logged) (pagetype : Nat) (table : Word) : Logged :=
  { t with events := t.events ++ [.visit pagetype table] }

/-- `recursiveFree` with its record. -/
def recursiveFreeLogged : Nat → Word → Logged → Logged
  | 0, pointer, t =>
      (List.range 512).foldl (fun t i =>
        let a := wordAt pointer i
        if bitSet (t.trees.words a) 56 then freeEntryLogged p Pag.SMALLPAGE a t else t) t
  | left + 1, pointer, t =>
      (List.range 512).foldl (fun t i =>
        let a := wordAt pointer i
        if bitSet (t.trees.words a) 56 then
          let t := freeEntryLogged p (Pag.SMALLPAGE - (left + 1)) a t
          if ¬ bitSet (t.trees.words a) 7 then
            recursiveFreeLogged left a (t.visit (Pag.SMALLPAGE - left) a)
          else t
        else t) t

end Record

section Specification

/-- Where the table below a directory lies.  Those below the root do not start in it. -/
structure TableLayout (root : Word) where
  below : Word → Word
  apart : ∀ i j, i < 512 → j < 512 → below (wordAt root i) ≠ wordAt root j

/-- Bits 9 to 11. -/
def pageMode (entry : Word) : Word := (entry >>> 9) &&& 7

/-- Bits 13 to 45 of the entry of a mapped file. -/
def fileDesc (entry : Word) : Word := (entry <<< 18) >>> 31

/-- Bits 48 to 62 of the entry of a mapped file. -/
def filePage (entry : Word) : Word := (entry <<< 1) >>> 49

variable (p : Process) (m : WordMemory) (L : TableLayout p.pagetree)

/-- What is to happen to an entry in use: its frame is freed, a listener of its page
goes, or nothing. -/
def givenBack (entry : Word) : List TeardownEvent :=
  if pageMode entry = Mode.RESERVE.code.setWidth 64 then [.free (shr (entry <<< 5) 18)]
  else if pageMode entry = Mode.FILE.code.setWidth 64 then
    [.drop (p.descs (fileDesc entry).toNat).findex (filePage entry).toNat]
  else []

/-- The record of a right teardown, with `left` levels below the table. -/
def recorded : Nat → Word → List TeardownEvent
  | 0, table =>
      (List.range 512).flatMap fun i =>
        let a := wordAt table i
        if bitSet (m a) 56 then givenBack p (m a) else []
  | left + 1, table =>
      (List.range 512).flatMap fun i =>
        let a := wordAt table i
        if bitSet (m a) 56 then
          givenBack p (m a) ++
            if bitSet (m a) 7 then []
            else .visit (Pag.SMALLPAGE - left) (L.below a) :: recorded left (L.below a)
        else []

/-- What `recursive_free` does from the root on. -/
def teardown (files : Nat → MemFile) : Logged :=
  recursiveFreeLogged p Pag.SMALLPAGE p.pagetree ⟨⟨m, files⟩, []⟩

/-- **Every table is visited and everything is given back, once.** -/
def TeardownRight (files : Nat → MemFile) : Prop :=
  (teardown p m files).events.Perm (recorded p m L Pag.SMALLPAGE p.pagetree)

/-- The condition on the tree: the entries of the root that are in use are large pages
which hold neither a frame of the process nor a page of a file. -/
def TreeBare : Prop :=
  ∀ i, i < 512 → bitSet (m (wordAt p.pagetree i)) 56 = true →
    bitSet (m (wordAt p.pagetree i)) 7 = true ∧
      pageMode (m (wordAt p.pagetree i)) ≠ Mode.RESERVE.code.setWidth 64 ∧
      pageMode (m (wordAt p.pagetree i)) ≠ Mode.FILE.code.setWidth 64

/-- What the events do to the files. -/
def dropEvents (files : Nat → MemFile) : List TeardownEvent → Nat → MemFile
  | [] => files
  | .drop findex page :: events => dropEvents (dropListener files findex page) events
  | _ :: events => dropEvents files events

end Specification

section Recorded

variable {p : Process}

theorem freeEntryLogged_trees (pagetype : Nat) (a : Word) (t : Logged) :
    (freeEntryLogged p pagetype a t).trees = freeEntry p pagetype a t.trees :=
  rfl

/-- **The record is one of `recursive_free`.** -/
theorem recursiveFreeLogged_trees (left : Nat) (pointer : Word) (t : Logged) :
    (recursiveFreeLogged p left pointer t).trees = recursiveFree p left pointer t.trees := by
  induction left generalizing pointer t with
  | zero =>
      rw [recursiveFreeLogged, recursiveFree]
      refine (List.foldl_hom Logged.trees ?_).symm
      intro t i
      dsimp only
      split_ifs <;> rfl
  | succ left ih =>
      rw [recursiveFreeLogged, recursiveFree]
      refine (List.foldl_hom Logged.trees ?_).symm
      intro t i
      dsimp only
      rw [freeEntryLogged_trees]
      split_ifs with hoccupied hdirectory
      · rfl
      · rw [ih]
        rfl
      · rfl

theorem dropEvents_append (files : Nat → MemFile) (l l' : List TeardownEvent) :
    dropEvents files (l ++ l') = dropEvents (dropEvents files l) l' := by
  induction l generalizing files with
  | nil => rfl
  | cons e l ih =>
      cases e with
      | visit pagetype table => exact ih files
      | free phys => exact ih files
      | drop findex page => exact ih (dropListener files findex page)

theorem dropEvents_free (files : Nat → MemFile) (l : List Word) :
    dropEvents files (l.map .free) = files := by
  induction l with
  | nil => rfl
  | cons phys l ih => exact ih

theorem freeEntry_files (pagetype : Nat) (a : Word) (s : Trees) :
    (freeEntry p pagetype a s).files = dropEvents s.files (freeEvents p pagetype a s) := by
  unfold freeEntry freeEvents
  dsimp only
  split_ifs with hreserve hfile
  · rw [dropEvents_free]
  · cases recursiveFreePage (s.files (entryFile p (s.words a))) (s.words a) <;> rfl
  · rfl

/-- The listeners that go are those recorded. -/
theorem recursiveFreeLogged_files
    {files : Nat → MemFile} {left : Nat} {pointer : Word} {t : Logged}
    (h : t.trees.files = dropEvents files t.events) :
    (recursiveFreeLogged p left pointer t).trees.files =
      dropEvents files (recursiveFreeLogged p left pointer t).events := by
  have hentry : ∀ (u : Logged) pagetype a, u.trees.files = dropEvents files u.events →
      (freeEntryLogged p pagetype a u).trees.files =
        dropEvents files (freeEntryLogged p pagetype a u).events := by
    intro u pagetype a hu
    rw [freeEntryLogged_trees, freeEntry_files, hu, freeEntryLogged, dropEvents_append]
  induction left generalizing pointer t with
  | zero =>
      rw [recursiveFreeLogged]
      refine List.foldlRecOn
        (motive := fun u : Logged => u.trees.files = dropEvents files u.events) _ _ h ?_
      intro u hu i _
      dsimp only
      split_ifs
      · exact hentry u _ _ hu
      · exact hu
  | succ left ih =>
      rw [recursiveFreeLogged]
      refine List.foldlRecOn
        (motive := fun u : Logged => u.trees.files = dropEvents files u.events) _ _ h ?_
      intro u hu i _
      dsimp only
      split_ifs
      · exact hentry u _ _ hu
      · refine ih ?_
        rw [Logged.visit, dropEvents_append]
        exact hentry u _ _ hu
      · exact hu

theorem visit_not_mem_freeEvents
    {pagetype l : Nat} {a b : Word} {s : Trees} :
    .visit l b ∉ freeEvents p pagetype a s := by
  unfold freeEvents
  dsimp only
  split_ifs
  · simp
  · cases recursiveFreePage (s.files (entryFile p (s.words a))) (s.words a) <;> simp
  · simp

/-- A table that is visited right below this one starts inside it. -/
theorem mem_visits
    {left l : Nat} {pointer b : Word} {t : Logged}
    (hleft : left ≤ Pag.SMALLPAGE)
    (h : .visit l b ∈ (recursiveFreeLogged p left pointer t).events) :
    .visit l b ∈ t.events ∨
      (l = Pag.SMALLPAGE + 1 - left ∧ ∃ i, i < 512 ∧ b = wordAt pointer i) ∨
      Pag.SMALLPAGE + 1 - left < l := by
  have hentry : ∀ (u : Logged) pagetype a,
      .visit l b ∈ (freeEntryLogged p pagetype a u).events → .visit l b ∈ u.events := by
    intro u pagetype a hu
    exact (List.mem_append.mp hu).resolve_right visit_not_mem_freeEvents
  induction left generalizing pointer t with
  | zero =>
      left
      rw [recursiveFreeLogged] at h
      refine List.foldlRecOn (motive := fun u : Logged => .visit l b ∈ u.events →
        .visit l b ∈ t.events) _ _ id ?_ h
      intro u hu i _
      dsimp only
      split_ifs
      · exact fun hmem => hu (hentry u _ _ hmem)
      · exact hu
  | succ left ih =>
      rw [recursiveFreeLogged] at h
      refine List.foldlRecOn (motive := fun u : Logged => .visit l b ∈ u.events →
        .visit l b ∈ t.events ∨
          (l = Pag.SMALLPAGE + 1 - (left + 1) ∧ ∃ i, i < 512 ∧ b = wordAt pointer i) ∨
          Pag.SMALLPAGE + 1 - (left + 1) < l) _ _ Or.inl ?_ h
      intro u hu i hi
      dsimp only
      split_ifs
      · exact fun hmem => hu (hentry u _ _ hmem)
      · intro hmem
        rcases ih (by omega) hmem with hbefore | ⟨hlevel, _⟩ | hlevel
        · rcases List.mem_append.mp hbefore with hentered | hvisit
          · exact hu (hentry u _ _ hentered)
          · obtain ⟨rfl, rfl⟩ := TeardownEvent.visit.inj (List.mem_singleton.mp hvisit)
            exact Or.inr (Or.inl ⟨by omega, i, List.mem_range.mp hi, rfl⟩)
        · exact Or.inr (Or.inr (by omega))
        · exact Or.inr (Or.inr (by omega))
      · exact hu

end Recorded

section Exactness

variable {p : Process} {m : WordMemory} {L : TableLayout p.pagetree} {files : Nat → MemFile}

/-- A large page is in no mode that the switch knows. -/
theorem freeMode_of_large
    {entry : Word}
    (hlarge : bitSet entry 7 = true) :
    freeMode entry ≠ Mode.RESERVE.code.setWidth 64 ∧
      freeMode entry ≠ Mode.FILE.code.setWidth 64 := by
  rw [bitSet_eq_getLsbD _ (by decide)] at hlarge
  have hbit : (freeMode entry).getLsbD 7 = true := by
    simpa [freeMode] using hlarge
  constructor
  · intro h
    rw [h] at hbit
    exact absurd hbit (by decide)
  · intro h
    rw [h] at hbit
    exact absurd hbit (by decide)

theorem freeEntryLogged_of_large
    {pagetype : Nat} {a : Word} {t : Logged}
    (hlarge : bitSet (t.trees.words a) 7 = true) :
    freeEntryLogged p pagetype a t = t := by
  obtain ⟨hreserve, hfile⟩ := freeMode_of_large hlarge
  unfold freeEntryLogged freeEntry freeEvents
  dsimp only
  rw [if_neg hreserve, if_neg hfile, if_neg hreserve, if_neg hfile, List.append_nil]

/-- Nothing happens to a root whose entries in use are large pages. -/
theorem teardown_of_large
    (hlarge : ∀ i, i < 512 → bitSet (m (wordAt p.pagetree i)) 56 = true →
      bitSet (m (wordAt p.pagetree i)) 7 = true) :
    teardown p m files = ⟨⟨m, files⟩, []⟩ := by
  unfold teardown
  rw [recursiveFreeLogged]
  refine List.foldlRecOn (motive := fun u : Logged => u = ⟨⟨m, files⟩, []⟩) _ _ rfl ?_
  rintro u rfl i hi
  dsimp only
  split_ifs with hoccupied hdirectory
  · exact freeEntryLogged_of_large (hlarge i (List.mem_range.mp hi) hoccupied)
  · rw [freeEntryLogged_of_large (hlarge i (List.mem_range.mp hi) hoccupied)] at hdirectory
    exact absurd (hlarge i (List.mem_range.mp hi) hoccupied) hdirectory
  · rfl

/-- What is recorded for an entry of the root. -/
theorem mem_recorded
    {i : Nat} {e : TeardownEvent}
    (hi : i < 512)
    (hoccupied : bitSet (m (wordAt p.pagetree i)) 56 = true)
    (he : e ∈ givenBack p (m (wordAt p.pagetree i)) ∨
      bitSet (m (wordAt p.pagetree i)) 7 = false ∧
        e = .visit (Pag.SMALLPAGE - 2) (L.below (wordAt p.pagetree i))) :
    e ∈ recorded p m L Pag.SMALLPAGE p.pagetree := by
  rw [recorded]
  refine List.mem_flatMap.mpr ⟨i, List.mem_range.mpr hi, ?_⟩
  dsimp only
  rw [if_pos hoccupied]
  rcases he with hback | ⟨hdirectory, rfl⟩
  · exact List.mem_append_left _ hback
  · rw [if_neg (by rw [hdirectory]; exact Bool.false_ne_true)]
    exact List.mem_append_right _ (List.mem_cons_self ..)

/-- A right teardown finds only large pages in the root. -/
theorem TeardownRight.large
    (h : TeardownRight p m L files)
    {i : Nat}
    (hi : i < 512)
    (hoccupied : bitSet (m (wordAt p.pagetree i)) 56 = true) :
    bitSet (m (wordAt p.pagetree i)) 7 = true := by
  by_contra hdirectory
  rw [Bool.not_eq_true] at hdirectory
  have hvisit := h.mem_iff.mpr (mem_recorded hi hoccupied (Or.inr ⟨hdirectory, rfl⟩))
  rcases mem_visits (Nat.le_refl _) hvisit with hnone | ⟨_, j, hj, hinside⟩ | hlevel
  · exact absurd hnone (by simp)
  · exact L.apart i j hi hj hinside
  · exact absurd hlevel (by decide)

theorem teardownRight_iff :
    TeardownRight p m L files ↔ TreeBare p m := by
  constructor
  · intro h i hi hoccupied
    have hnothing : recorded p m L Pag.SMALLPAGE p.pagetree = [] := by
      have hperm : (teardown p m files).events.Perm _ := h
      rw [teardown_of_large fun j hj => h.large hj] at hperm
      exact List.nil_perm.mp hperm
    have hback : givenBack p (m (wordAt p.pagetree i)) = [] := by
      refine List.eq_nil_iff_forall_not_mem.mpr fun e he => ?_
      have hmem := mem_recorded (L := L) hi hoccupied (Or.inl he)
      rw [hnothing] at hmem
      exact List.not_mem_nil hmem
    refine ⟨h.large hi hoccupied, fun hreserve => ?_, fun hfile => ?_⟩
    · rw [givenBack, if_pos hreserve] at hback
      exact List.cons_ne_nil _ _ hback
    · rw [givenBack, if_neg (by rw [hfile]; decide), if_pos hfile] at hback
      exact List.cons_ne_nil _ _ hback
  · intro h
    have hnothing : recorded p m L Pag.SMALLPAGE p.pagetree = [] := by
      rw [recorded, List.flatMap_eq_nil_iff]
      intro i hi
      dsimp only
      split_ifs with hoccupied hlarge
      · obtain ⟨_, hreserve, hfile⟩ := h i (List.mem_range.mp hi) hoccupied
        rw [givenBack, if_neg hreserve, if_neg hfile]
        rfl
      · exact absurd (h i (List.mem_range.mp hi) hoccupied).1 hlarge
      · rfl
    unfold TeardownRight
    rw [teardown_of_large fun i hi hoccupied => (h i hi hoccupied).1, hnothing]

/-- **When a process' pages are torn down once each**: exactly when its root holds nothing
but large pages that are neither reserved nor of a file.  The record is that of
`recursive_free`, and the listeners that go are the ones in it. -/
theorem tree_teardown_iff (p : Process) (m : WordMemory) (files : Nat → MemFile)
    (L : TableLayout p.pagetree) :
    (TeardownRight p m L files ↔ TreeBare p m) ∧
      (teardown p m files).trees = recursiveFree p Pag.SMALLPAGE p.pagetree ⟨m, files⟩ ∧
      (teardown p m files).trees.files =
        dropEvents files (teardown p m files).events := by
  have hstart : (⟨⟨m, files⟩, []⟩ : Logged).trees.files =
      dropEvents files (⟨⟨m, files⟩, []⟩ : Logged).events := rfl
  refine ⟨teardownRight_iff, ?_, ?_⟩
  · rw [teardown, recursiveFreeLogged_trees]
  · rw [teardown, recursiveFreeLogged_files hstart]

/-- The tables below the root at 8192 one behind the other. -/
def stackedTables : TableLayout 8192#64 where
  below a := 12288#64 + 512#64 * (a - 8192#64)
  apart i j hi hj h := by
    unfold wordAt at h
    have hnat := congrArg BitVec.toNat h
    simp [BitVec.toNat_add, BitVec.toNat_mul] at hnat
    omega

/-- The first entry of the root is a directory, in use and of an empty table. -/
def oneDirectory : WordMemory :=
  Function.update (fun _ => 0) 8192#64 (setBit 1 56)

/-- **The one directory is not visited.** -/
theorem directory_not_visited :
    ¬ TeardownRight ⟨8192#64, 0, 0, fun _ => 0, fun _ => ⟨0, 0⟩, true, false, true⟩
      oneDirectory stackedTables (fun _ => onePageFile) := by
  rw [teardownRight_iff]
  intro hbare
  have hlarge := (hbare 0 (by decide) (by decide)).1
  exact absurd hlarge (by decide)

end Exactness

end Vfs
end BestKernel
