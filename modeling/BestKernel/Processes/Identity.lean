import BestKernel.Processes.Signalling

/-!
# Ids that are asked for

`SYS_GETTID` and `SYS_GETPID` return the difference of two typed pointers, which is the
slot already, divided by the size of a slot once more.  `SYS_TSIGNAL` and `SYS_PSIGNAL` take
the number of a slot.  So an id that a thread has asked for names the first slot of a
block of `sizeof` ones, and whoever signals by it signals that one.

`signalled_by_id_iff` says whom this reaches.

Readings of the source.  `get_threadking_objrct` is the pool of threads.  The sizes of
`Thread` and `Process` are parameters.
-/

namespace BestKernel
namespace Processes

open Machine
open Kontrol

/-- `sizeof(Thread)` and `sizeof(Process)`, which have more than one member. -/
structure SlotSizes where
  thread : Nat
  process : Nat
  thread_large : 1 < thread
  process_large : 1 < process

/-- The two calls. -/
inductive IdCall where
  | SYS_GETTID
  | SYS_GETPID
deriving DecidableEq

namespace System

variable (z : SlotSizes) (s : System) (t : Nat)

def sysGettid : System := s.returns t ((t / z.thread : Nat) : Int)

def sysGetpid : System := s.returns t ((s.parentOf t / z.process : Nat) : Int)

def idCall : IdCall → System
  | .SYS_GETTID => s.sysGettid z t
  | .SYS_GETPID => s.sysGetpid z t

end System

section Ids

variable (z : SlotSizes) (s : System) (t u : Nat) (signal : Half)

/-- What the caller asks for the id of: itself, or its process. -/
def IdCall.asker : IdCall → Target
  | SYS_GETTID => .thread t
  | SYS_GETPID => .process (s.parentOf t)

/-- The slot of a target. -/
def Target.slot : Target → Nat
  | thread tid => tid
  | process pid => pid

/-- The call that signals by an id. -/
def IdCall.signals (id : Int) : IdCall → SignalCall
  | SYS_GETTID => .SYS_TSIGNAL (BitVec.ofInt 32 id)
  | SYS_GETPID => .SYS_PSIGNAL (BitVec.ofInt 32 id)

/-- Thread `t` asks for an id, and thread `u` signals by it. -/
def signalById (call : IdCall) : System :=
  let asked := s.idCall z t call
  asked.signalCall u signal (call.signals (asked.sys_retval t))

/-- A call that is not refused. -/
def Accepted : SignalCall → Prop
  | .SYS_TSIGNAL tid => ¬ Outranked s u (.thread tid.toNat)
  | .SYS_PSIGNAL pid => ¬ Outranked s u (.process pid.toNat) ∧ bitPopCount signal = 1

variable {z s t u signal}

/-- A call that is accepted adds the signal to the set of its target. -/
theorem signalCall_of_accepted
    {call : SignalCall}
    (haccepted : Accepted s u signal call)
    (other : Target) :
    (s.signalCall u signal call).sigsetOf other =
      if other = call.target then s.sigsetOf other ||| signal else s.sigsetOf other := by
  cases call with
  | SYS_TSIGNAL tid =>
      rw [tsignal_accepts haccepted, returns_sigsetOf, modifySignals_sigsetOf]
      rfl
  | SYS_PSIGNAL pid =>
      rw [psignal_accepts haccepted.1 haccepted.2, modifyProcess_sigsetOf]
      rfl

/-- One that is refused adds it to none. -/
theorem signalCall_of_refused
    {call : SignalCall}
    (hrefused : ¬ Accepted s u signal call)
    (other : Target) :
    (s.signalCall u signal call).sigsetOf other = s.sigsetOf other := by
  cases call with
  | SYS_TSIGNAL tid => rw [tsignal_outranked (not_not.mp hrefused), returns_sigsetOf]
  | SYS_PSIGNAL pid =>
      by_cases houtranked : Outranked s u (.process pid.toNat)
      · rw [psignal_outranked houtranked, returns_sigsetOf]
      · have hcount : bitPopCount signal ≠ 1 := fun h => hrefused ⟨houtranked, h⟩
        rw [psignal_uncounted houtranked hcount, returns_sigsetOf]

/-- An id is its own slot in the slot 0 only. -/
theorem ofInt_div_eq_iff
    {size slot : Nat}
    (hsize : 1 < size)
    (hslot : slot < 2 ^ 32) :
    slot = (BitVec.ofInt 32 ((slot / size : Nat) : Int)).toNat ↔ slot = 0 := by
  have hle : slot / size ≤ slot := Nat.div_le_self slot size
  rw [BitVec.ofInt_natCast, BitVec.toNat_ofNat,
    Nat.mod_eq_of_lt (Nat.lt_of_le_of_lt hle hslot)]
  constructor
  · intro h
    by_contra hne
    exact absurd h (Nat.ne_of_gt (Nat.div_lt_self (Nat.pos_of_ne_zero hne) hsize))
  · rintro rfl
    exact (Nat.zero_div size).symm

/-- The call by the id of a thread names it in slot 0 only. -/
theorem asker_eq_target_iff
    (call : IdCall)
    (hslot : (call.asker s t).slot < 2 ^ 32) :
    call.asker s t = (call.signals ((s.idCall z t call).sys_retval t)).target ↔
      (call.asker s t).slot = 0 := by
  cases call with
  | SYS_GETTID =>
      have hid := ofInt_div_eq_iff z.thread_large hslot
      have hretval : (s.sysGettid z t).sys_retval t = ((t / z.thread : Nat) : Int) :=
        returns_sys_retval _
      rw [System.idCall, hretval]
      exact ⟨fun h => hid.mp (Target.thread.inj h), fun h => congrArg _ (hid.mpr h)⟩
  | SYS_GETPID =>
      have hid := ofInt_div_eq_iff z.process_large hslot
      have hretval : (s.sysGetpid z t).sys_retval t =
          ((s.parentOf t / z.process : Nat) : Int) := returns_sys_retval _
      rw [System.idCall, hretval]
      exact ⟨fun h => hid.mp (Target.process.inj h), fun h => congrArg _ (hid.mpr h)⟩

/-- Asking for an id changes no set. -/
theorem idCall_sigsetOf
    (call : IdCall)
    (other : Target) :
    (s.idCall z t call).sigsetOf other = s.sigsetOf other := by
  cases call <;> exact returns_sigsetOf _ _

/--
**A signal by id reaches the one that asked for the id exactly when its slot is 0 and the
call is accepted**, or when it had the signal before.
-/
theorem signalled_by_id_iff
    (z : SlotSizes)
    (s : System)
    (t u : Nat)
    (signal : Half)
    (call : IdCall)
    (hslot : (call.asker s t).slot < 2 ^ 32) :
    (signalById z s t u signal call).sigsetOf (call.asker s t) =
        s.sigsetOf (call.asker s t) ||| signal ↔
      (Accepted (s.idCall z t call) u signal
          (call.signals ((s.idCall z t call).sys_retval t)) ∧
        (call.asker s t).slot = 0) ∨
      s.sigsetOf (call.asker s t) ||| signal = s.sigsetOf (call.asker s t) := by
  have htarget := asker_eq_target_iff (z := z) call hslot
  by_cases haccepted : Accepted (s.idCall z t call) u signal
      (call.signals ((s.idCall z t call).sys_retval t))
  · rw [signalById, signalCall_of_accepted haccepted, idCall_sigsetOf]
    by_cases hzero : (call.asker s t).slot = 0
    · rw [if_pos (htarget.mpr hzero)]
      exact ⟨fun _ => .inl ⟨haccepted, hzero⟩, fun _ => rfl⟩
    · rw [if_neg fun h => hzero (htarget.mp h)]
      exact ⟨fun h => .inr h.symm, fun h => (h.resolve_left fun h => hzero h.2).symm⟩
  · rw [signalById, signalCall_of_refused haccepted, idCall_sigsetOf]
    exact ⟨fun h => .inr h.symm, fun h => (h.resolve_left fun h => haccepted h.1).symm⟩

/-- Thread 3 of the idle system is not signalled by its id. -/
theorem signalled_by_id_idle :
    (signalById ⟨2, 2, by decide, by decide⟩ idleSystem 3 3 2 .SYS_GETTID).sigsetOf
        (IdCall.SYS_GETTID.asker idleSystem 3) =
        idleSystem.sigsetOf (IdCall.SYS_GETTID.asker idleSystem 3) ||| 2 ↔
      (Accepted (idleSystem.idCall ⟨2, 2, by decide, by decide⟩ 3 .SYS_GETTID) 3 2
          (IdCall.SYS_GETTID.signals
            ((idleSystem.idCall ⟨2, 2, by decide, by decide⟩ 3 .SYS_GETTID).sys_retval 3)) ∧
        (IdCall.SYS_GETTID.asker idleSystem 3).slot = 0) ∨
      idleSystem.sigsetOf (IdCall.SYS_GETTID.asker idleSystem 3) ||| 2 =
        idleSystem.sigsetOf (IdCall.SYS_GETTID.asker idleSystem 3) :=
  signalled_by_id_iff ⟨2, 2, by decide, by decide⟩ idleSystem 3 3 2 .SYS_GETTID (by decide)

end Ids

end Processes
end BestKernel
