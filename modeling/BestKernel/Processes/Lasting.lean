import BestKernel.Processes.Ownership
import BestKernel.Processes.ProgramMapping
import BestKernel.Processes.Signalling

/-!
# Processes that last

`SIGKILL` is 0, so that `SYS_PEXIT` sets no bit of `sigset`, the branch of
`getnext_thread` that ends threads and processes is never taken, and `check_signals` never
comes to the signals of the process.  `PKILL` is left to the removal of drivers.

`process_lasts` says this of whole runs: whatever calls are made, a process stays what it
is for as long as `exec` does not take its slot, and none of the signals that it has been
sent is ever taken from it.
-/

namespace BestKernel
namespace Processes

open Machine
open Runs

/-- The process still runs its program: what may have changed is the list of its threads
and its mask, and signals may have been added. -/
structure Lasts (p p' : Process) : Prop where
  same : p' = { p with workers := p'.workers, sigmask := p'.sigmask, sigset := p'.sigset }
  pending : ∀ i, p.sigset.getLsbD i = true → p'.sigset.getLsbD i = true

/-- Every process of the kernel lasts. -/
def AllLast (s s' : Kernel) : Prop :=
  ∀ q, Lasts (s.processes q) (s'.processes q)

section Lasts

variable {k : Config} {p p' p'' : Process} {s s' s'' : Kernel}

theorem Lasts.refl (p : Process) : Lasts p p := ⟨rfl, fun _ h => h⟩

theorem Lasts.trans
    (h : Lasts p p')
    (h' : Lasts p' p'') :
    Lasts p p'' := by
  refine ⟨?_, fun i hi => h'.pending i (h.pending i hi)⟩
  rw [h'.same, h.same]

theorem AllLast.trans
    (h : AllLast s s')
    (h' : AllLast s' s'') :
    AllLast s s'' :=
  fun q => (h q).trans (h' q)

theorem AllLast.of_processes
    (h : s'.processes = s.processes) :
    AllLast s s' := by
  intro q
  rw [h]
  exact .refl _

/-- A write to one process. -/
theorem AllLast.modifyProcess
    {write : Process → Process}
    (hwrite : ∀ x, Lasts x (write x))
    (p : Nat) :
    AllLast s (s.modifyProcess p write) := by
  intro q
  unfold Kernel.modifyProcess
  dsimp only
  rw [Function.update_apply]
  split_ifs with hq
  · rw [hq]
    exact hwrite _
  · exact .refl _

/-- Adding signals. -/
theorem Lasts.raised (p : Process) (signals : Half) :
    Lasts p { p with sigset := p.sigset ||| signals } := by
  refine ⟨rfl, fun i hi => ?_⟩
  rw [BitVec.getLsbD_or, hi, Bool.true_or]

/-- `TKILL` takes the thread from the list of its process. -/
theorem tkill_allLast (s : Kernel) (t : Nat) : AllLast s (s.tkill k t) := by
  intro q
  rw [tkill_processes, Function.update_apply]
  split_ifs with hq
  · rw [hq]
    exact ⟨rfl, fun _ h => h⟩
  · exact .refl _

theorem thread_processes
    {calling_thread newfag : Nat} {made : Bool}
    (h : s.thread k calling_thread = some (newfag, made, s')) :
    s'.processes = s.processes := by
  unfold Kernel.thread at h
  dsimp only at h
  obtain ⟨⟨term, s₁⟩, hstack, h⟩ := Option.bind_eq_some_iff.mp h
  obtain ⟨-, hprocesses, -⟩ := makeStack_frame hstack
  rw [if_pos (makeStack_zero hstack)] at h
  cases h
  exact hprocesses

/-- A round of `getnext_thread` ends nothing. -/
theorem getnextRound_ended
    (s : Kernel) (i : Nat) :
    (s.getnextRound k i).1 = none ∧ (s.getnextRound k i).2.processes = s.processes := by
  unfold Kernel.getnextRound
  rw [killBranch_eq]
  dsimp only
  split_ifs
  · exact ⟨rfl, rfl⟩
  · exact ⟨rfl, rfl⟩

end Lasts

section Checks

variable {thread : Sched.SignalThread}

/-- `check_signals` leaves the signals of the process. -/
theorem checkSignals_sigset
    {fuel : Nat} {process_sigset : Half} {r : Sched.Checked}
    (h : Sched.checkSignals fuel thread process_sigset = some r) :
    r.process_sigset = process_sigset := by
  unfold Sched.checkSignals at h
  split at h
  · cases h
    rfl
  · obtain ⟨⟨sigset, taken⟩, hrun, heq⟩ := Option.map_eq_some_iff.mp h
    cases heq
    cases fuel with
    | zero => cases hrun
    | succ fuel =>
        rw [Loops.run_exit (Sched.processRound_maxsig _)] at hrun
        cases hrun
        rfl

end Checks

section Steps

variable {k : Config} {m : Modules} {s s' : System} {op : SystemOp}

/-- `PKILL` is called for the process. -/
def Ends (k : Config) (m : Modules) (s : System) (op : SystemOp) (s' : System) (p : Nat) : Prop :=
  s.run k m op = some (some p, s')

/-- The call neither ends the process nor makes another one in its slot. -/
def Spares (k : Config) (q : Nat) (s : System) (op : SystemOp) : Prop :=
  op ≠ .PKILL q ∧ (s.execOf k op ≠ none → nextProcess s.kernel ≠ q)

theorem checkSignals_lasts
    {t fuel : Nat} {ended : Option Nat}
    (h : s.checkSignals k t fuel = some (ended, s')) :
    ended = none ∧ AllLast s.kernel s'.kernel := by
  obtain ⟨checked, hcheck, hchecked⟩ := Option.map_eq_some_iff.mp h
  obtain ⟨-, hnone⟩ := Sched.checkSignals_taken hcheck
  have hset : AllLast s.kernel ((s.modifySignals t fun _ => checked.thread).modifyProcess
      (s.parentOf t) fun p => { p with sigset := checked.process_sigset }).kernel := by
    rw [System.modifyProcess_kernel, checkSignals_sigset hcheck]
    intro q
    unfold Kernel.modifyProcess
    dsimp only
    rw [Function.update_apply]
    split_ifs with hq
    · rw [hq]
      exact .refl _
    · exact .refl _
  have hkill := hset.trans (tkill_allLast (k := k) _ t)
  rw [hnone] at hchecked
  simp only [List.not_mem_nil, if_false] at hchecked
  split_ifs at hchecked
  · cases hchecked
    exact ⟨rfl, hkill⟩
  · cases hchecked
    exact ⟨rfl, hset⟩

theorem exec_lasts
    {t source q : Nat} {ret : Int} {made : Option Nat} {kernel kernel' : Kernel}
    (h : kernel.exec k t source = some (ret, made, kernel'))
    (hq : nextProcess kernel ≠ q) :
    Lasts (kernel.processes q) (kernel'.processes q) := by
  obtain ⟨-, -, hloads⟩ | ⟨-, -, -, htaken⟩ := exec_spec h
  · rw [hloads.processes]
    exact .refl _
  · rw [htaken.processes q hq.symm]
    exact .refl _

theorem maskCall_allLast
    (t : Nat) (call : Sched.MaskState → Half → Sched.MaskState) (sigmask : Half) :
    AllLast s.kernel (s.maskCall t call sigmask).kernel := by
  simp only [System.maskCall, System.returns_kernel, System.modifyProcess_kernel,
    System.modifySignals_kernel]
  apply AllLast.modifyProcess
  exact fun _ => ⟨rfl, fun _ hi => hi⟩

/-- What the calls that do not come to `exec` do, but for `PKILL`. -/
theorem run_lasts
    {ended : Option Nat}
    (h : s.run k m op = some (ended, s'))
    (hexec : s.execOf k op = none) :
    (∃ p, op = .PKILL p ∧ ended = some p) ∨ ended = none ∧ AllLast s.kernel s'.kernel := by
  cases op with
  | SYS_EXEC t desc =>
      obtain ⟨s₁, hcall, heq⟩ := Option.map_eq_some_iff.mp h
      cases heq
      rw [System.execOf] at hexec
      split_ifs at hexec with hcome
      rcases System.sysExec_cases hcall with ⟨-, hkernel⟩ | ⟨hpasses, -⟩
      · exact .inr ⟨rfl, .of_processes (congrArg Kernel.processes hkernel)⟩
      · exact absurd hpasses hcome
  | SYS_MODINSERT t desc =>
      obtain ⟨s₁, hcall, heq⟩ := Option.map_eq_some_iff.mp h
      cases heq
      rw [System.execOf] at hexec
      split_ifs at hexec with hcome
      rcases System.sysModinsert_cases hcall with ⟨-, hkernel⟩ | ⟨hpasses, -⟩
      · exact .inr ⟨rfl, .of_processes (congrArg Kernel.processes hkernel)⟩
      · exact absurd hpasses hcome
  | SYS_THREAD t =>
      obtain ⟨s₁, hcall, heq⟩ := Option.map_eq_some_iff.mp h
      cases heq
      obtain ⟨⟨newfag, made, kernel⟩, hthread, rfl⟩ := Option.map_eq_some_iff.mp hcall
      exact .inr ⟨rfl, .of_processes (thread_processes hthread)⟩
  | SYS_TSIGNAL t tid signal =>
      cases h
      refine .inr ⟨rfl, ?_⟩
      unfold System.sysTsignal
      split_ifs <;> exact .of_processes rfl
  | SYS_PSIGNAL t pid signal =>
      cases h
      refine .inr ⟨rfl, ?_⟩
      unfold System.sysPsignal
      split_ifs
      · exact .of_processes rfl
      · exact .of_processes rfl
      · rw [System.modifyProcess_kernel]
        apply AllLast.modifyProcess
        exact fun x => .raised x signal
  | SYS_PEXIT t =>
      cases h
      refine .inr ⟨rfl, ?_⟩
      rw [System.sysPexit, System.modifyProcess_kernel]
      apply AllLast.modifyProcess
      exact fun x => .raised x _
  | SYS_TEXIT t =>
      cases h
      exact .inr ⟨rfl, .of_processes rfl⟩
  | SYS_TSIGMASK t sigmask =>
      cases h
      exact .inr ⟨rfl, maskCall_allLast t _ sigmask⟩
  | SYS_PSIGMASK t sigmask =>
      cases h
      exact .inr ⟨rfl, maskCall_allLast t _ sigmask⟩
  | SYS_CHMETA t desc name type mode =>
      cases h
      refine .inr ⟨rfl, ?_⟩
      unfold System.sysChmeta
      dsimp only
      split_ifs <;> exact .of_processes rfl
  | SYSMOUNT t ret vfs metas =>
      cases h
      refine .inr ⟨rfl, ?_⟩
      unfold System.sysMount
      split_ifs <;> exact .of_processes rfl
  | SYS_MODCTL t desc function data =>
      cases h
      refine .inr ⟨rfl, ?_⟩
      unfold System.sysModctl
      dsimp only
      split_ifs
      · exact .of_processes rfl
      · exact .of_processes rfl
      · exact .of_processes rfl
      · rw [System.answered_kernel]
        exact .of_processes (System.moduleCtl_processes _ _ _)
  | check_signals t fuel => exact .inr (checkSignals_lasts h)
  | getnext_thread i =>
      cases h
      obtain ⟨hended, hprocesses⟩ := getnextRound_ended (k := k) s.kernel i
      exact .inr ⟨hended, .of_processes hprocesses⟩
  | TKILL t =>
      cases h
      exact .inr ⟨rfl, tkill_allLast _ t⟩
  | PKILL p =>
      cases h
      exact .inl ⟨p, rfl, rfl⟩

theorem systemStep_lasts
    {q : Nat}
    (hstep : SystemStep k m s op s')
    (hspared : Spares k q s op) :
    Lasts (s.kernel.processes q) (s'.kernel.processes q) := by
  obtain ⟨ended, h⟩ := hstep
  cases hexec : s.execOf k op with
  | some launch =>
      obtain ⟨-, ret, made, hlaunch⟩ := System.run_exec h hexec
      exact exec_lasts hlaunch (hspared.2 (by rw [hexec]; exact Option.some_ne_none _))
  | none =>
      obtain ⟨p, rfl, -⟩ | ⟨-, hlast⟩ := run_lasts h hexec
      · cases h
        have hne : q ≠ p := fun hq => hspared.1 (congrArg SystemOp.PKILL hq.symm)
        change Lasts _ ((s.kernel.pkill k p).processes q)
        rw [pkill_processes s.kernel hne]
        exact .refl _
      · exact hlast q

/-- Only `PKILL` itself ends a process. -/
theorem ends_only
    {p : Nat}
    (h : Ends k m s op s' p) :
    op = .PKILL p := by
  cases hexec : s.execOf k op with
  | some launch =>
      obtain ⟨hended, -⟩ := System.run_exec h hexec
      cases hended
  | none =>
      obtain ⟨q, rfl, hended⟩ | ⟨hended, -⟩ := run_lasts h hexec
      · cases hended
        rfl
      · cases hended

/--
**No process ends, and no signal is served.**  In every run of the calls and of the
scheduler, no step but `PKILL` ends a process, and a process whose slot `exec` does not take
goes on with its program, however often it is signalled or asks to exit; the signals that
were sent to it stay.
-/
theorem process_lasts
    {q : Nat} {run : List (SystemOp × System)}
    (hrun : Run (SystemStep k m) s run)
    (hspared : StepsMeet (Spares k q) s run) :
    Always (fun t => Lasts (s.kernel.processes q) (t.kernel.processes q)) s run ∧
      EveryStep (fun t op t' => ∀ p, Ends k m t op t' p → op = .PKILL p) s run := by
  constructor
  · refine always_of_stepsMeet ?_ hrun (.refl _) hspared
    exact fun t op t' hlasts hspares hstep => hlasts.trans (systemStep_lasts hstep hspares)
  · exact everyStep_of_invariant (I := fun _ => True) (fun _ _ _ _ _ => trivial)
      (fun t op t' _ _ p h => ends_only h) hrun trivial

/-- A thread asks for the end of its process, and the scheduler goes on. -/
def exitRun (s₁ s₂ s₃ : System) : List (SystemOp × System) :=
  [(.SYS_PEXIT 3, s₁), (.check_signals 3 1, s₂), (.getnext_thread 3, s₃)]

theorem process_lasts_idle :
    ∃ s₁ s₂ s₃, Run (SystemStep idleConfig idleModules) idleSystem (exitRun s₁ s₂ s₃) ∧
      Always (fun t => Lasts (idleKernel.processes 3) (t.kernel.processes 3)) idleSystem
        (exitRun s₁ s₂ s₃) ∧
      EveryStep (fun t op t' => ∀ p, Ends idleConfig idleModules t op t' p → op = .PKILL p)
        idleSystem (exitRun s₁ s₂ s₃) := by
  obtain ⟨s₁, s₂, s₃, hrun⟩ : ∃ s₁ s₂ s₃,
      Run (SystemStep idleConfig idleModules) idleSystem (exitRun s₁ s₂ s₃) :=
    ⟨_, _, _, .cons ⟨none, rfl⟩ (.cons ⟨none, rfl⟩ (.cons ⟨none, rfl⟩ (.nil _)))⟩
  have hcall : ∀ (s : System) op, op ≠ SystemOp.PKILL 3 → s.execOf idleConfig op = none →
      Spares idleConfig 3 s op := fun s op hne hexec => ⟨hne, fun h => absurd hexec h⟩
  exact ⟨s₁, s₂, s₃, hrun, process_lasts hrun
    ⟨hcall _ _ nofun rfl, hcall _ _ nofun rfl, hcall _ _ nofun rfl, trivial⟩⟩

end Steps

end Processes
end BestKernel
