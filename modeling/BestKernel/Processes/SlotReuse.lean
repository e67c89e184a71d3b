import BestKernel.Library.Runs
import BestKernel.Processes.Ownership

/-!
# The slots of processes and threads

`alloc` takes the first slot that is not marked and does not mark it, and `free` of one
slot clears marks below slot 1 only.  So nothing that the system does changes the marks of
its pools, except that slot 0 may lose its mark (`FirstFreed`), and `exec` goes on finding
the slot that it found first, or slot 0.

`exec_reuses_slots` says this of whole runs: however many programs are started, their
processes and threads are put into two slots each.

Readings of the source.  `clone_thread` is about threads only, and takes its slot as
`pool_alloc` does; it is the hypothesis on the modules.
-/

namespace BestKernel
namespace Processes

open Machine
open Kontrol
open Runs

/-- The same pool, but for slot 0, which may have lost its mark. -/
structure FirstFreed (h h' : Hash) : Prop where
  pool : h'.pool = h.pool
  stride : h'.stride = h.stride
  length : h'.length = h.length
  marks : SameMarks h.ckarray h'.ckarray

/-- The slot of the next section of one slot. -/
def nextSlot (h : Hash) : Nat := slotIn h (h.alloc 1 0).1

section Pools

variable {h h' h'' : Hash}

theorem FirstFreed.refl (h : Hash) : FirstFreed h h :=
  ⟨rfl, rfl, rfl, .refl _⟩

theorem FirstFreed.trans
    (hh : FirstFreed h h')
    (hh' : FirstFreed h' h'') :
    FirstFreed h h'' where
  pool := hh'.pool.trans hh.pool
  stride := hh'.stride.trans hh.stride
  length := hh'.length.trans hh.length
  marks := hh.marks.trans hh'.marks

/-- A pool that is refused new memory stays as it is, and one that finds a section counts
it. -/
theorem firstFreed_alloc (h : Hash) (reqlen : Half) : FirstFreed h (h.alloc reqlen 0).2 := by
  unfold Hash.alloc
  cases Hash.allocLoop h.ckarray reqlen h.length.toNat 0 0 with
  | some i => exact ⟨rfl, rfl, rfl, .refl _⟩
  | none =>
      dsimp only
      rw [if_neg fun hgrow => hgrow.2 rfl]
      exact .refl h

theorem firstFreed_free (h : Hash) (bytes : ByteMemory) (sect : Word) :
    FirstFreed h (h.free bytes sect 1).1 :=
  ⟨rfl, rfl, rfl, Hash.free_sameMarks bytes sect⟩

/-- The search for one slot ends at slot 0 if this is not marked. -/
theorem nextSlot_of_first
    (hlength : h.length ≠ 0)
    (hpool : h.pool ≠ 0)
    (hfirst : h.ckarray 0 = 0) :
    nextSlot h = 0 := by
  obtain ⟨n, hn⟩ : ∃ n, h.length.toNat = n + 1 :=
    Nat.exists_eq_succ_of_ne_zero fun hzero => hlength (BitVec.eq_of_toNat_eq hzero)
  have hloop : Hash.allocLoop h.ckarray 1 h.length.toNat 0 0 = some 0 := by
    rw [hn, Hash.allocLoop, if_pos hfirst]
    rfl
  have hfound : (h.alloc 1 0).1 = some h.pool := by
    unfold Hash.alloc
    rw [hloop]
    simp
  rw [nextSlot, slotIn, hfound, Option.getD_some, if_neg hpool, Hash.slotOf]
  simp

/-- **What is found next is what was found before, or slot 0.** -/
theorem FirstFreed.nextSlot
    (hh : FirstFreed h h')
    (hpool : h.pool ≠ 0) :
    nextSlot h' = nextSlot h ∨ nextSlot h' = 0 := by
  have hsame : h'.ckarray 0 = h.ckarray 0 → Processes.nextSlot h' = Processes.nextSlot h := by
    intro hfirst
    have hmarks : h'.ckarray = h.ckarray := by
      funext i
      by_cases hi : i = 0
      · rw [hi, hfirst]
      · exact hh.marks.others i hi
    have hfound : (h'.alloc 1 0).1 = (h.alloc 1 0).1 := by
      unfold Hash.alloc
      rw [hmarks, hh.length, hh.pool]
      cases Hash.allocLoop h.ckarray 1 h.length.toNat 0 0 with
      | some i => rfl
      | none =>
          dsimp only
          rw [if_neg fun hgrow => hgrow.2 rfl, if_neg fun hgrow => hgrow.2 rfl]
    unfold Processes.nextSlot slotIn Hash.slotOf
    rw [hfound, hh.pool, hh.stride]
  rcases hh.marks.first with hfirst | hfirst
  · exact .inl (hsame hfirst)
  · by_cases hlength : h'.length = 0
    · -- an empty pool finds nothing, whatever its marks are
      refine .inl ?_
      have hempty : h.length = 0 := hh.length ▸ hlength
      have hnone : ∀ g : Hash, g.length = 0 → (g.alloc 1 0).1 = none := by
        intro g hg
        unfold Hash.alloc
        rw [hg]
        simp [Hash.allocLoop]
      unfold Processes.nextSlot slotIn
      rw [hnone h' hlength, hnone h hempty]
      rfl
    · exact .inr (nextSlot_of_first hlength (hh.pool ▸ hpool) hfirst)

end Pools

/-- Both pools of the kernel. -/
structure PoolsReused (s s' : Kernel) : Prop where
  kprc : FirstFreed s.kprc s'.kprc
  ktrd : FirstFreed s.ktrd s'.ktrd

section Parts

variable {k : Config} {s s' s'' : Kernel}

theorem PoolsReused.refl (s : Kernel) : PoolsReused s s := ⟨.refl _, .refl _⟩

theorem PoolsReused.trans
    (h : PoolsReused s s')
    (h' : PoolsReused s' s'') :
    PoolsReused s s'' :=
  ⟨h.kprc.trans h'.kprc, h.ktrd.trans h'.ktrd⟩

theorem PoolsReused.of_pools
    (hkprc : s'.kprc = s.kprc)
    (hktrd : s'.ktrd = s.ktrd) :
    PoolsReused s s' := by
  refine ⟨?_, ?_⟩
  · rw [hkprc]
    exact .refl _
  · rw [hktrd]
    exact .refl _

theorem exec_reused
    {calling_thread source : Nat} {ret : Int} {made : Option Nat}
    (h : s.exec k calling_thread source = some (ret, made, s')) :
    PoolsReused s s' := by
  obtain ⟨-, -, hloads⟩ | ⟨-, -, -, htaken⟩ := exec_spec h
  · exact .of_pools hloads.kprc hloads.ktrd
  · refine ⟨?_, ?_⟩
    · rw [htaken.kprc]
      exact firstFreed_alloc _ 1
    · rw [htaken.ktrd]
      exact firstFreed_alloc _ 1

theorem thread_reused
    {calling_thread newfag : Nat} {made : Bool}
    (h : s.thread k calling_thread = some (newfag, made, s')) :
    PoolsReused s s' := by
  unfold Kernel.thread at h
  dsimp only at h
  obtain ⟨⟨term, s₁⟩, hstack, h⟩ := Option.bind_eq_some_iff.mp h
  have hbuilds := makeStack_builds (p := (s.threads calling_thread).parent) hstack
  have hktrd : FirstFreed s.ktrd s₁.ktrd := by
    rw [hbuilds.ktrd]
    exact firstFreed_alloc _ 1
  have hkprc : FirstFreed s.kprc s₁.kprc := by
    rw [hbuilds.kprc]
    exact .refl _
  split_ifs at h
  · cases h
    exact ⟨hkprc, hktrd.trans (firstFreed_free _ s₁.bytes _)⟩
  · cases h
    exact ⟨hkprc, hktrd⟩

theorem tkill_reused (s : Kernel) (t : Nat) : PoolsReused s (s.tkill k t) :=
  ⟨.refl _, firstFreed_free s.ktrd s.bytes (slotAddress s.ktrd t)⟩

theorem killDescriptor_reused (s : Kernel) (p i : Nat) :
    PoolsReused s (Kernel.killDescriptor p s i) := by
  unfold Kernel.killDescriptor
  dsimp only
  split_ifs <;> exact .of_pools rfl rfl

theorem foldl_killDescriptor_reused (descs : List Nat) (s : Kernel) (p : Nat) :
    PoolsReused s (descs.foldl (Kernel.killDescriptor p) s) := by
  induction descs generalizing s with
  | nil => exact .refl s
  | cons i descs ih => exact (killDescriptor_reused s p i).trans (ih _)

theorem pkill_reused (s : Kernel) (p : Nat) : PoolsReused s (s.pkill k p) := by
  unfold Kernel.pkill
  dsimp only
  generalize recursiveFree k (s.processes p) _ _ _ _ = trees
  have htrees : PoolsReused s
      { s with words := trees.words, files := trees.files, table := trees.table } :=
    .of_pools rfl rfl
  have hkilled := htrees.trans
    (foldl_killDescriptor_reused (List.range (s.processes p).descs.length.toNat) _ p)
  generalize List.foldl (Kernel.killDescriptor p) _ _ = killed at hkilled ⊢
  -- the segments and the descriptors are in none of the two pools
  refine hkilled.trans ⟨?_, .refl _⟩
  exact firstFreed_free killed.kprc killed.bytes (slotAddress killed.kprc p)

theorem getnextRound_reused (s : Kernel) (i : Nat) :
    PoolsReused s (s.getnextRound k i).2 := by
  have hkill : PoolsReused s (s.killBranch k i).2 := by
    unfold Kernel.killBranch
    dsimp only
    split_ifs
    · exact (tkill_reused s i).trans (pkill_reused _ _)
    · exact tkill_reused s i
    · exact .refl s
  unfold Kernel.getnextRound
  dsimp only
  split_ifs
  · exact hkill.trans ⟨.refl _, firstFreed_free _ s.bytes _⟩
  · exact hkill

end Parts

section Steps

variable {k : Config} {m : Modules} {s s' : System}

theorem checkSignals_reused
    {t fuel : Nat} {ended : Option Nat}
    (h : s.checkSignals k t fuel = some (ended, s')) :
    PoolsReused s.kernel s'.kernel := by
  obtain ⟨checked, -, hchecked⟩ := Option.map_eq_some_iff.mp h
  have hset : PoolsReused s.kernel ((s.modifySignals t fun _ => checked.thread).modifyProcess
      (s.parentOf t) fun p => { p with sigset := checked.process_sigset }).kernel := by
    rw [System.modifyProcess_kernel]
    exact .of_pools rfl rfl
  have hkill := hset.trans (tkill_reused (k := k) _ t)
  have hend : ∀ s' : Kernel, PoolsReused s.kernel s' →
      PoolsReused s.kernel (s'.pkill k (s.parentOf t)) :=
    fun s' hs' => hs'.trans (pkill_reused s' _)
  dsimp only at hchecked
  split_ifs at hchecked
  · cases hchecked
    exact hend _ hkill
  · cases hchecked
    exact hend _ hset
  · cases hchecked
    exact hkill
  · cases hchecked
    exact hset

theorem sysModctl_reused
    (hclone : ∀ s t, PoolsReused s (m.clone_thread s t).2)
    (t : Nat) (desc function : Half) (data : Word) :
    PoolsReused s.kernel (s.sysModctl k m t desc function data).kernel := by
  have hcall : ∀ (s' : System) driv passdata, PoolsReused s.kernel s'.kernel →
      PoolsReused s.kernel (s'.moduleCtl m driv function passdata).2.kernel := by
    intro s' driv passdata hs'
    have hcloned := hs'.trans (hclone s'.kernel (s'.kernel.pointers
      (wordAt (s'.kernel.processes (s'.runtime driv)).workers.pool 0)).threadSlot)
    unfold System.moduleCtl
    dsimp only
    split_ifs <;> exact hcloned.trans (.of_pools rfl rfl)
  unfold System.sysModctl
  dsimp only
  split_ifs
  · exact .refl _
  · exact .refl _
  · exact .of_pools rfl rfl
  · rw [System.answered_kernel]
    exact hcall _ _ _ (.of_pools rfl rfl)

/-- **Every step leaves the marks of the pools, but for that of slot 0.** -/
theorem systemStep_reused
    (hclone : ∀ s t, PoolsReused s (m.clone_thread s t).2)
    {op : SystemOp}
    (hstep : SystemStep k m s op s') :
    PoolsReused s.kernel s'.kernel := by
  obtain ⟨ended, h⟩ := hstep
  cases op with
  | SYS_EXEC t desc =>
      obtain ⟨s₁, hcall, heq⟩ := Option.map_eq_some_iff.mp h
      cases heq
      rcases System.sysExec_cases hcall with ⟨-, hkernel⟩ | ⟨-, ret, made, hexec⟩
      · rw [hkernel]
        exact .refl _
      · exact exec_reused hexec
  | SYS_MODINSERT t desc =>
      obtain ⟨s₁, hcall, heq⟩ := Option.map_eq_some_iff.mp h
      cases heq
      rcases System.sysModinsert_cases hcall with ⟨-, hkernel⟩ | ⟨-, ret, made, hexec⟩
      · rw [hkernel]
        exact .refl _
      · exact exec_reused hexec
  | SYS_THREAD t =>
      obtain ⟨s₁, hcall, heq⟩ := Option.map_eq_some_iff.mp h
      cases heq
      obtain ⟨⟨newfag, made, kernel⟩, hthread, rfl⟩ := Option.map_eq_some_iff.mp hcall
      exact thread_reused hthread
  | SYS_TSIGNAL t tid signal =>
      cases h
      unfold System.sysTsignal
      split_ifs <;> exact .of_pools rfl rfl
  | SYS_PSIGNAL t pid signal =>
      cases h
      unfold System.sysPsignal
      split_ifs <;> exact .of_pools rfl rfl
  | SYS_PEXIT t =>
      cases h
      exact .of_pools rfl rfl
  | SYS_TEXIT t =>
      cases h
      exact .of_pools rfl rfl
  | SYS_TSIGMASK t sigmask =>
      cases h
      exact .of_pools rfl rfl
  | SYS_PSIGMASK t sigmask =>
      cases h
      exact .of_pools rfl rfl
  | SYS_CHMETA t desc name type mode =>
      cases h
      unfold System.sysChmeta
      dsimp only
      split_ifs <;> exact .of_pools rfl rfl
  | SYSMOUNT t ret vfs metas =>
      cases h
      unfold System.sysMount
      split_ifs <;> exact .of_pools rfl rfl
  | SYS_MODCTL t desc function data =>
      cases h
      exact sysModctl_reused hclone t desc function data
  | check_signals t fuel => exact checkSignals_reused h
  | getnext_thread i =>
      cases h
      exact getnextRound_reused _ i
  | TKILL t =>
      cases h
      exact tkill_reused _ t
  | PKILL p =>
      cases h
      exact pkill_reused _ p

/-- A step makes the process `p` with the thread `u`. -/
def Makes (k : Config) (s : System) (op : SystemOp) (s' : System) (p u : Nat) : Prop :=
  ∃ t source, s.execOf k op = some (t, source) ∧
    s.kernel.exec k t source = some ((p : Int), some u, s'.kernel)

/-- What `exec` makes is in the next slots. -/
theorem Makes.next
    {op : SystemOp} {p u : Nat}
    (h : Makes k s op s' p u) :
    p = nextSlot s.kernel.kprc ∧ u = nextSlot s.kernel.ktrd := by
  obtain ⟨t, source, -, hexec⟩ := h
  obtain ⟨-, hmade, -⟩ | ⟨-, hmade, hret, -⟩ := exec_spec hexec
  · cases hmade
  · exact ⟨Int.ofNat.inj hret, Option.some.inj hmade⟩

/--
**All processes share two slots, and all threads.**  In every run of the calls and of the
scheduler, every process that is made is put into the slot that was the first free one at
the start, or into slot 0, and so is its thread.
-/
theorem exec_reuses_slots
    {run : List (SystemOp × System)}
    (hclone : ∀ s t, PoolsReused s (m.clone_thread s t).2)
    (hprocesses : s.kernel.kprc.pool ≠ 0)
    (hthreads : s.kernel.ktrd.pool ≠ 0)
    (hrun : Run (SystemStep k m) s run) :
    EveryStep (fun t op t' => ∀ p u, Makes k t op t' p u →
      (p = nextSlot s.kernel.kprc ∨ p = 0) ∧ (u = nextSlot s.kernel.ktrd ∨ u = 0)) s run := by
  refine everyStep_of_invariant (I := fun t => PoolsReused s.kernel t.kernel) ?_ ?_ hrun
    (.refl _)
  · exact fun t op t' hreused hstep => hreused.trans (systemStep_reused hclone hstep)
  · intro t op t' hreused _ p u hmakes
    obtain ⟨rfl, rfl⟩ := hmakes.next
    exact ⟨hreused.kprc.nextSlot hprocesses, hreused.ktrd.nextSlot hthreads⟩

/-- The process that `exec` makes in the shared system is in slot 0. -/
theorem makes_shared :
    ∃ system, SystemStep idleConfig idleModules sharedSystem (.SYS_EXEC 3 0) system ∧
      Makes idleConfig sharedSystem (.SYS_EXEC 3 0) system 0 0 := by
  obtain ⟨_, ⟨hcome, hgood⟩, hrun⟩ := run_sharedRun
  obtain _ | ⟨⟨ended, system, hcall, -⟩, -⟩ := hrun
  obtain ⟨-, ret, made, hexec⟩ := System.run_exec hcall hcome
  refine ⟨system, ⟨ended, hcall⟩, 3, 0, hcome, ?_⟩
  obtain ⟨hrefused, -⟩ | ⟨-, rfl, rfl, -⟩ := exec_spec hexec
  · exact absurd hrefused hgood
  · exact hexec

theorem exec_reuses_slots_shared :
    ∃ system, Makes idleConfig sharedSystem (.SYS_EXEC 3 0) system 0 0 ∧
      EveryStep (fun t op t' => ∀ p u, Makes idleConfig t op t' p u →
        (p = nextSlot sharedKernel.kprc ∨ p = 0) ∧ (u = nextSlot sharedKernel.ktrd ∨ u = 0))
        sharedSystem [(.SYS_EXEC 3 0, system)] := by
  obtain ⟨system, hstep, hmakes⟩ := makes_shared
  exact ⟨system, hmakes, exec_reuses_slots (fun _ _ => .of_pools rfl rfl) (by decide) (by decide)
    (.cons hstep (.nil _))⟩

end Steps

end Processes
end BestKernel
