import BestKernel.Processes.SystemCalls

/-!
# Signalling threads and processes

`SYS_TSIGNAL` and `SYS_PSIGNAL` should enforce one rule (`MaySignal`): the target is there,
its owner is not above that of the caller, and one signal is given.  The two guards compare
the owners alike.  Neither looks whether the target is there, only `SYS_PSIGNAL` counts the
bits that it is given, and only `SYS_TSIGNAL` returns a value when it has signalled.

`signalling_right_iff` says for which targets and signals the two calls keep to the rule.

Readings of the source.  A slot is taken when it is marked in the `ckarray` of its pool.  A
call reads the slot of its target and that of the process of its target.
-/

namespace BestKernel
namespace Processes

open Machine
open Kontrol

/-- Who is signalled. -/
inductive Target where
  | thread (tid : Nat)
  | process (pid : Nat)
deriving DecidableEq

/-- The two calls. -/
inductive SignalCall where
  | SYS_TSIGNAL (tid : Half)
  | SYS_PSIGNAL (pid : Half)

def SignalCall.target : SignalCall → Target
  | SYS_TSIGNAL tid => .thread tid.toNat
  | SYS_PSIGNAL pid => .process pid.toNat

namespace System

variable (s : System) (t : Nat) (signal : Half)

def signalCall : SignalCall → System
  | .SYS_TSIGNAL tid => s.sysTsignal t tid signal
  | .SYS_PSIGNAL pid => s.sysPsignal t pid signal

def sigsetOf : Target → Half
  | .thread tid => (s.signals tid).sigset
  | .process pid => (s.kernel.processes pid).sigset

/-- The pool of a target with its slot. -/
def slotOf : Target → Hash × Nat
  | .thread tid => (s.kernel.ktrd, tid)
  | .process pid => (s.kernel.kprc, pid)

/-- The process of a target. -/
def processOf : Target → Nat
  | .thread tid => s.parentOf tid
  | .process pid => pid

def ownerOf (target : Target) : Half := (s.kernel.processes (s.processOf target)).owner_id

end System

section Specification

/-- A slot of the pool. -/
def InPool (slot : Hash × Nat) : Prop := slot.2 < slot.1.length.toNat

/-- A slot that is taken. -/
def Marked (slot : Hash × Nat) : Prop := InPool slot ∧ slot.1.ckarray slot.2 ≠ 0

/-- The bit of one signal. -/
def OneSignal (signal : Half) : Prop := ∃ S : Sched.Signal, signal = 1 <<< S.code

variable (s : System) (t : Nat) (signal : Half)

/-- The rule. -/
structure MaySignal (target : Target) : Prop where
  marked : Marked (s.slotOf target)
  owner : s.ownerOf target ≤ (s.process t).owner_id
  signal : OneSignal signal

/-- What a call should do: it adds the signal to the set of its target and returns 0 if the
rule allows it, and else it returns something else and changes no set. -/
structure CallKeepsRule (call : SignalCall) : Prop where
  inside : InPool (s.slotOf call.target) ∧ InPool (s.kernel.kprc, s.processOf call.target)
  allowed : MaySignal s t signal call.target →
    (s.signalCall t signal call).sys_retval t = 0 ∧
      ∀ other, (s.signalCall t signal call).sigsetOf other =
        if other = call.target then s.sigsetOf other ||| signal else s.sigsetOf other
  refused : ¬ MaySignal s t signal call.target →
    (s.signalCall t signal call).sys_retval t ≠ 0 ∧
      ∀ other, (s.signalCall t signal call).sigsetOf other = s.sigsetOf other

variable (tid pid : Half)

/-- Both calls keep to the rule, and so one accepts a thread that is there if the other
accepts its process. -/
structure SignallingRight : Prop where
  thread : CallKeepsRule s t signal (.SYS_TSIGNAL tid)
  process : CallKeepsRule s t signal (.SYS_PSIGNAL pid)
  alike : s.parentOf tid.toNat = pid.toNat → Marked (s.kernel.ktrd, tid.toNat) →
    Marked (s.kernel.kprc, pid.toNat) →
      ((s.signalCall t signal (.SYS_TSIGNAL tid)).sys_retval t = 0 ↔
        (s.signalCall t signal (.SYS_PSIGNAL pid)).sys_retval t = 0)

/-- The owner of the target is above that of the caller. -/
def Outranked (target : Target) : Prop := (s.process t).owner_id < s.ownerOf target

/-- The condition on a call.  Where `SYS_PSIGNAL` signals, the caller must find the value in
its thread already; and where it should not have, it must have signalled in vain. -/
def CallSafe : SignalCall → Prop
  | .SYS_TSIGNAL tid =>
      (InPool (s.kernel.ktrd, tid.toNat) ∧ InPool (s.kernel.kprc, s.parentOf tid.toNat)) ∧
        (Outranked s t (.thread tid.toNat) ∨
          Marked (s.kernel.ktrd, tid.toNat) ∧ OneSignal signal)
  | .SYS_PSIGNAL pid =>
      InPool (s.kernel.kprc, pid.toNat) ∧
        (Outranked s t (.process pid.toNat) ∨ bitPopCount signal ≠ 1 ∨
          (Marked (s.kernel.kprc, pid.toNat) ∧ OneSignal signal) ∧ s.sys_retval t = 0 ∨
          ¬ (Marked (s.kernel.kprc, pid.toNat) ∧ OneSignal signal) ∧ s.sys_retval t ≠ 0 ∧
            s.sigsetOf (.process pid.toNat) ||| signal = s.sigsetOf (.process pid.toNat))

end Specification

section Rule

variable {s : System} {t : Nat} {signal : Half} {target : Target} {tid pid : Half}

theorem not_maySignal_of_outranked
    (h : Outranked s t target) :
    ¬ MaySignal s t signal target :=
  fun hmay => absurd h (BitVec.not_lt.mpr hmay.owner)

theorem maySignal_iff
    (h : ¬ Outranked s t target) :
    MaySignal s t signal target ↔ Marked (s.slotOf target) ∧ OneSignal signal :=
  ⟨fun hmay => ⟨hmay.marked, hmay.signal⟩,
    fun hmay => ⟨hmay.1, BitVec.not_lt.mp h, hmay.2⟩⟩

/-- One signal is one bit. -/
theorem bitPopCount_of_oneSignal
    (h : OneSignal signal) :
    bitPopCount signal = 1 := by
  obtain ⟨S, rfl⟩ := h
  cases S <;> decide

/-- A thread is refused by its owner only. -/
theorem tsignal_outranked
    (h : Outranked s t (.thread tid.toNat)) :
    s.signalCall t signal (.SYS_TSIGNAL tid) = s.returns t 1 :=
  if_pos h

theorem tsignal_accepts
    (h : ¬ Outranked s t (.thread tid.toNat)) :
    s.signalCall t signal (.SYS_TSIGNAL tid) =
      (s.modifySignals tid.toNat fun victim =>
        { victim with sigset := victim.sigset ||| signal }).returns t 0 :=
  if_neg h

/-- A process by its owner, or by the number of bits. -/
theorem psignal_outranked
    (h : Outranked s t (.process pid.toNat)) :
    s.signalCall t signal (.SYS_PSIGNAL pid) = s.returns t 1 :=
  if_pos h

theorem psignal_uncounted
    (h : ¬ Outranked s t (.process pid.toNat))
    (hcount : bitPopCount signal ≠ 1) :
    s.signalCall t signal (.SYS_PSIGNAL pid) = s.returns t 2 :=
  (if_neg h).trans (if_pos hcount)

theorem psignal_accepts
    (h : ¬ Outranked s t (.process pid.toNat))
    (hcount : bitPopCount signal = 1) :
    s.signalCall t signal (.SYS_PSIGNAL pid) =
      s.modifyProcess pid.toNat fun p => { p with sigset := p.sigset ||| signal } :=
  (if_neg h).trans (if_neg (not_not_intro hcount))

@[simp] theorem returns_sigsetOf (value : Int) (other : Target) :
    (s.returns t value).sigsetOf other = s.sigsetOf other := by
  cases other <;> rfl

@[simp] theorem returns_sys_retval (value : Int) :
    (s.returns t value).sys_retval t = value :=
  Function.update_self _ _ _

/-- A thread's set with the signal. -/
theorem modifySignals_sigsetOf (tid : Nat) (other : Target) :
    (s.modifySignals tid fun victim =>
        { victim with sigset := victim.sigset ||| signal }).sigsetOf other =
      if other = .thread tid then s.sigsetOf other ||| signal else s.sigsetOf other := by
  cases other with
  | process pid => rfl
  | thread u =>
      unfold System.sigsetOf System.modifySignals
      dsimp only
      by_cases hu : u = tid
      · rw [hu, Function.update_self, if_pos rfl]
      · rw [Function.update_of_ne hu, if_neg fun h => hu (Target.thread.inj h)]

/-- A process's set with the signal. -/
theorem modifyProcess_sigsetOf (pid : Nat) (other : Target) :
    (s.modifyProcess pid fun p => { p with sigset := p.sigset ||| signal }).sigsetOf other =
      if other = .process pid then s.sigsetOf other ||| signal else s.sigsetOf other := by
  cases other with
  | thread u => rfl
  | process q =>
      unfold System.sigsetOf System.modifyProcess Kernel.modifyProcess
      dsimp only
      by_cases hq : q = pid
      · rw [hq, Function.update_self, if_pos rfl]
      · rw [Function.update_of_ne hq, if_neg fun h => hq (Target.process.inj h)]

/-- **When `SYS_TSIGNAL` keeps to the rule.** -/
theorem tsignal_keepsRule_iff :
    CallKeepsRule s t signal (.SYS_TSIGNAL tid) ↔ CallSafe s t signal (.SYS_TSIGNAL tid) := by
  by_cases houtranked : Outranked s t (.thread tid.toNat)
  · have hrefused : ¬ MaySignal s t signal (.thread tid.toNat) :=
      not_maySignal_of_outranked houtranked
    refine ⟨fun h => ⟨h.inside, Or.inl houtranked⟩, fun h => ⟨h.1, ?_, fun _ => ?_⟩⟩
    · exact fun hmay => absurd hmay hrefused
    · rw [tsignal_outranked houtranked]
      simp
  · have hmay : MaySignal s t signal (.thread tid.toNat) ↔
        Marked (s.kernel.ktrd, tid.toNat) ∧ OneSignal signal := maySignal_iff houtranked
    have hvalue : (s.signalCall t signal (.SYS_TSIGNAL tid)).sys_retval t = 0 := by
      rw [tsignal_accepts houtranked, returns_sys_retval]
    constructor
    · intro h
      refine ⟨h.inside, Or.inr (hmay.mp ?_)⟩
      by_contra hrefused
      exact (h.refused hrefused).1 hvalue
    · rintro ⟨hinside, hsafe⟩
      have hallowed := hmay.mpr (hsafe.resolve_left houtranked)
      refine ⟨hinside, fun _ => ⟨hvalue, fun other => ?_⟩, fun h => absurd hallowed h⟩
      rw [tsignal_accepts houtranked, returns_sigsetOf, modifySignals_sigsetOf]
      rfl

/-- Where `SYS_PSIGNAL` signals, the return value stays. -/
theorem psignal_accepted_sys_retval
    (houtranked : ¬ Outranked s t (.process pid.toNat))
    (hcount : bitPopCount signal = 1) :
    (s.signalCall t signal (.SYS_PSIGNAL pid)).sys_retval t = s.sys_retval t := by
  rw [psignal_accepts houtranked hcount]
  rfl

theorem psignal_accepted_sigsetOf
    (houtranked : ¬ Outranked s t (.process pid.toNat))
    (hcount : bitPopCount signal = 1)
    (other : Target) :
    (s.signalCall t signal (.SYS_PSIGNAL pid)).sigsetOf other =
      if other = .process pid.toNat then s.sigsetOf other ||| signal else s.sigsetOf other := by
  rw [psignal_accepts houtranked hcount, modifyProcess_sigsetOf]

/-- So a call that keeps to the rule finds the value that it should return. -/
theorem CallKeepsRule.accepted_process
    (h : CallKeepsRule s t signal (.SYS_PSIGNAL pid))
    (houtranked : ¬ Outranked s t (.process pid.toNat))
    (hcount : bitPopCount signal = 1) :
    MaySignal s t signal (.process pid.toNat) ∧ s.sys_retval t = 0 ∨
      ¬ MaySignal s t signal (.process pid.toNat) ∧ s.sys_retval t ≠ 0 ∧
        s.sigsetOf (.process pid.toNat) ||| signal = s.sigsetOf (.process pid.toNat) := by
  have hvalue := psignal_accepted_sys_retval houtranked hcount
  by_cases hallowed : MaySignal s t signal (.process pid.toNat)
  · have hzero := (h.allowed hallowed).1
    rw [hvalue] at hzero
    exact Or.inl ⟨hallowed, hzero⟩
  · obtain ⟨hne, hkept⟩ := h.refused hallowed
    have hsame := hkept (.process pid.toNat)
    rw [psignal_accepted_sigsetOf houtranked hcount, if_pos rfl] at hsame
    rw [hvalue] at hne
    exact Or.inr ⟨hallowed, hne, hsame⟩

theorem keepsRule_of_allowed
    (houtranked : ¬ Outranked s t (.process pid.toNat))
    (hcount : bitPopCount signal = 1)
    (hinside : InPool (s.kernel.kprc, pid.toNat))
    (hallowed : MaySignal s t signal (.process pid.toNat))
    (hzero : s.sys_retval t = 0) :
    CallKeepsRule s t signal (.SYS_PSIGNAL pid) := by
  have hvalue := psignal_accepted_sys_retval houtranked hcount
  refine ⟨⟨hinside, hinside⟩, fun _ => ⟨hvalue.trans hzero, ?_⟩, fun h => absurd hallowed h⟩
  exact psignal_accepted_sigsetOf houtranked hcount

/-- Where it should not have signalled, the signal must be there already. -/
theorem keepsRule_of_kept
    (houtranked : ¬ Outranked s t (.process pid.toNat))
    (hcount : bitPopCount signal = 1)
    (hinside : InPool (s.kernel.kprc, pid.toNat))
    (hrefused : ¬ MaySignal s t signal (.process pid.toNat))
    (hne : s.sys_retval t ≠ 0)
    (hsame : s.sigsetOf (.process pid.toNat) ||| signal = s.sigsetOf (.process pid.toNat)) :
    CallKeepsRule s t signal (.SYS_PSIGNAL pid) := by
  have hvalue := psignal_accepted_sys_retval houtranked hcount
  refine ⟨⟨hinside, hinside⟩, fun h => absurd h hrefused,
    fun _ => ⟨fun h => hne (hvalue.symm.trans h), fun other => ?_⟩⟩
  rw [psignal_accepted_sigsetOf houtranked hcount]
  split_ifs with hother
  · rw [hother]
    exact hsame
  · rfl

/-- **When `SYS_PSIGNAL` keeps to the rule.** -/
theorem psignal_keepsRule_iff :
    CallKeepsRule s t signal (.SYS_PSIGNAL pid) ↔ CallSafe s t signal (.SYS_PSIGNAL pid) := by
  by_cases houtranked : Outranked s t (.process pid.toNat)
  · have hrefused : ¬ MaySignal s t signal (.process pid.toNat) :=
      not_maySignal_of_outranked houtranked
    refine ⟨fun h => ⟨h.inside.1, Or.inl houtranked⟩, fun h => ⟨⟨h.1, h.1⟩, ?_, fun _ => ?_⟩⟩
    · exact fun hmay => absurd hmay hrefused
    · rw [psignal_outranked houtranked]
      simp
  · have hmay : MaySignal s t signal (.process pid.toNat) ↔
        Marked (s.kernel.kprc, pid.toNat) ∧ OneSignal signal := maySignal_iff houtranked
    by_cases hcount : bitPopCount signal = 1
    · constructor
      · intro h
        refine ⟨h.inside.1, Or.inr (Or.inr ?_)⟩
        exact (h.accepted_process houtranked hcount).imp (And.imp_left hmay.mp)
          (And.imp_left fun hrefused hboth => hrefused (hmay.mpr hboth))
      · rintro ⟨hinside, hsafe⟩
        rcases (hsafe.resolve_left houtranked).resolve_left (not_not_intro hcount) with
          ⟨hboth, hzero⟩ | ⟨hboth, hne, hsame⟩
        · exact keepsRule_of_allowed houtranked hcount hinside (hmay.mpr hboth) hzero
        · have hrefused : ¬ MaySignal s t signal (.process pid.toNat) :=
            fun h => hboth (hmay.mp h)
          exact keepsRule_of_kept houtranked hcount hinside hrefused hne hsame
    · have hrefused : ¬ MaySignal s t signal (.process pid.toNat) :=
        fun h => hcount (bitPopCount_of_oneSignal h.signal)
      refine ⟨fun h => ⟨h.inside.1, Or.inr (Or.inl hcount)⟩,
        fun h => ⟨⟨h.1, h.1⟩, fun h => absurd h hrefused, fun _ => ?_⟩⟩
      rw [psignal_uncounted houtranked hcount]
      simp

/-- A call that keeps to the rule returns 0 exactly where the rule allows it. -/
theorem CallKeepsRule.returns_iff
    {call : SignalCall}
    (h : CallKeepsRule s t signal call) :
    (s.signalCall t signal call).sys_retval t = 0 ↔ MaySignal s t signal call.target :=
  ⟨fun hzero => by_contra fun hrefused => (h.refused hrefused).1 hzero,
    fun hmay => (h.allowed hmay).1⟩

/-- The rule is the same for a thread and for its process. -/
theorem maySignal_thread_iff
    (hparent : s.parentOf tid.toNat = pid.toNat)
    (hthread : Marked (s.kernel.ktrd, tid.toNat))
    (hprocess : Marked (s.kernel.kprc, pid.toNat)) :
    MaySignal s t signal (.thread tid.toNat) ↔ MaySignal s t signal (.process pid.toNat) := by
  have howner : s.ownerOf (.thread tid.toNat) = s.ownerOf (.process pid.toNat) := by
    unfold System.ownerOf System.processOf
    dsimp only
    rw [hparent]
  constructor
  · intro h
    exact ⟨hprocess, howner ▸ h.owner, h.signal⟩
  · intro h
    exact ⟨hthread, howner ▸ h.owner, h.signal⟩

/-- **When the two calls enforce the one rule.** -/
theorem signalling_right_iff (s : System) (t : Nat) (signal tid pid : Half) :
    SignallingRight s t signal tid pid ↔
      CallSafe s t signal (.SYS_TSIGNAL tid) ∧ CallSafe s t signal (.SYS_PSIGNAL pid) := by
  rw [← tsignal_keepsRule_iff, ← psignal_keepsRule_iff]
  refine ⟨fun h => ⟨h.thread, h.process⟩, fun ⟨hthread, hprocess⟩ => ?_⟩
  refine ⟨hthread, hprocess, fun hparent hmarked hmarked' => ?_⟩
  rw [hthread.returns_iff, hprocess.returns_iff]
  exact maySignal_thread_iff hparent hmarked hmarked'

/-- A thread in slot 3 of a process in slot 3, and no other. -/
def idleSystem : System where
  kernel := idleKernel
  signals _ := zeroSignals
  vfs := idlePool 0x6000
  metas _ := ⟨fun _ => 0, 0, 0, 0, 0, 0⟩
  runtime _ := 0
  sys_retval _ := 0

/-- It signals thread 1, which is not there. -/
theorem idle_signalled :
    ¬ Marked (idleKernel.ktrd, 1) ∧
      ((idleSystem.signalCall 3 2 (.SYS_TSIGNAL 1)).signals 1).sigset = 2 ∧
      ¬ SignallingRight idleSystem 3 2 1 3 := by
  have hfree : ¬ Marked (idleKernel.ktrd, 1) := fun h => h.2 rfl
  refine ⟨hfree, rfl, fun h => ?_⟩
  have hallowed := h.thread.returns_iff.mp rfl
  exact hfree hallowed.marked

end Rule

end Processes
end BestKernel
