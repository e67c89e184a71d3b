import BestKernel.Processors.BringUp

/-!
# No processor answers the boot processor

What the processors do while they are brought up, in every order in which they take their
interrupts.  The messages that the boot processor sends to one of them come to it in their
order, so what it has taken is always a beginning of its `script` (`Reading`): the message
in startup mode, `FIRST_SIPI`, which clears `cr9`, and two digits, which bring it to 8.
None of these makes it send anything (`sendsNothing_script`).

Hence `no_brother_answers`: nobody but the boot processor ever has a message on the way,
nobody asks for its data, and so `serve_data` and `receive_data` never run.
-/

namespace BestKernel
namespace Processors

open Machine
open Runs

section Reads

variable {bsp_id p : Byte} {b : Brother} {m : Ipi} {taken rest : List Ipi}

/-- The processor sends nothing for any of the messages, one after the other. -/
def Brother.SendsNothing (b : Brother) : List Ipi → Prop
  | [] => True
  | m :: ms => (b.handles m).2 = [] ∧ (b.handles m).1.SendsNothing ms

theorem Brother.SendsNothing.next
    (h : b.SendsNothing (taken ++ m :: rest)) :
    ((b.reads taken).handles m).2 = [] := by
  induction taken generalizing b with
  | nil => exact h.1
  | cons m' taken ih => exact ih h.2

theorem sendsNothing_roundOf (b : Brother) (bsp_id p : Byte) :
    b.SendsNothing (roundOf bsp_id p) := by
  have hfour : ((0 : Word) + 4).setWidth 32 ≠ (64 : Half) := by decide
  have height : ((0 : Word) + 4 + 4).setWidth 32 ≠ (64 : Half) := by decide
  obtain ⟨cr5, hfirst⟩ := handles_digit (b := b.prepareControls) hfour bsp_id
    (BitVec.ofNat 32 p.toNat)
  obtain ⟨cr5', hsecond⟩ := handles_digit (b := ⟨cr5, 0 + 4, b.digits + 1, b.requests⟩) height
    bsp_id (BitVec.ofNat 32 p.toNat)
  simp only [roundOf, bootRound, List.map_cons, List.map_nil, BootAction.ipi,
    Brother.SendsNothing, handles_firstSipi, hfirst]
  exact ⟨trivial, trivial, congrArg Prod.snd hsecond, trivial⟩

/-- **Nothing is sent for any message of the script.** -/
theorem sendsNothing_script
    (hp : p ≠ bsp_id)
    (b : Brother) :
    b.SendsNothing (script bsp_id p) := by
  rw [script_of_ne hp, Brother.SendsNothing, handles_startup]
  refine ⟨rfl, ?_⟩
  split_ifs
  · exact sendsNothing_roundOf b bsp_id p
  · trivial

end Reads

section Silence

variable {bsp_id : Byte} {aps : Finset Byte} {b : Byte → Brother} {s s' : BringUp}

/-- What the boot processor has still to send to `p`. -/
def BringUp.owed (s : BringUp) (bsp_id p : Byte) : List Ipi :=
  (s.todo.map BootAction.ipi).filter (Ipi.reaches · bsp_id p)

section Taking

variable (s : BringUp) (a p : Byte) (m : Ipi) (rest : List Ipi)

theorem taken_channel : (s.taken a p m rest).channel a p = rest := by
  simp [BringUp.taken]

theorem taken_brothers :
    (s.taken a p m rest).brothers p = ((s.brothers p).handles m).1 := by
  simp [BringUp.taken]

variable {a p}

theorem taken_channel_of_ne
    {a' p' : Byte}
    (hne : a' ≠ a ∨ p' ≠ p) :
    (s.taken a p m rest).channel a' p' = s.channel a' p' := by
  unfold BringUp.taken
  dsimp only
  by_cases ha : a' = a
  · subst ha
    have hp : p' ≠ p := hne.resolve_left fun h => h rfl
    rw [Function.update_self, Function.update_of_ne hp]
  · rw [Function.update_of_ne ha]

variable (a)

theorem taken_brothers_of_ne
    {p' : Byte}
    (hne : p' ≠ p) :
    (s.taken a p m rest).brothers p' = s.brothers p' := by
  unfold BringUp.taken
  exact Function.update_of_ne hne _ _

end Taking

/-- Every processor has read a beginning of its script from the registers `b`, what follows
is on the way and then still to be sent, and nothing else is on the way. -/
structure Reading (bsp_id : Byte) (b : Byte → Brother) (s : BringUp) : Prop where
  silent : ∀ a p, a ≠ bsp_id → s.channel a p = []
  read : ∀ p, ∃ taken,
    taken ++ (s.channel bsp_id p ++ s.owed bsp_id p) = script bsp_id p ∧
      s.brothers p = (b p).reads taken

/-- Nothing is on the way to the boot processor. -/
theorem Reading.alone
    (h : Reading bsp_id b s) :
    s.channel bsp_id bsp_id = [] := by
  obtain ⟨taken, hscript, -⟩ := h.read bsp_id
  rw [script_self] at hscript
  exact (List.append_eq_nil_iff.mp (List.append_eq_nil_iff.mp hscript).2).1

theorem Reading.boot
    {action : BootAction} {rest : List BootAction}
    (h : Reading bsp_id b s)
    (htodo : s.todo = action :: rest) :
    Reading bsp_id b
      ({ s with todo := rest, sent := s.sent ++ [action] }.send bsp_id action.ipi) := by
  refine ⟨fun a p ha => ?_, fun p => ?_⟩
  · rw [BringUp.send]
    exact (if_neg ha).trans (h.silent a p ha)
  · obtain ⟨taken, hscript, hregisters⟩ := h.read p
    refine ⟨taken, ?_, hregisters⟩
    rw [← hscript, BringUp.owed, BringUp.owed, htodo]
    simp [BringUp.send, ← List.filter_append]

/-- A message that is taken is the next of the script, and nothing is sent for it. -/
theorem Reading.deliver
    {p : Byte} {m : Ipi} {rest : List Ipi}
    (h : Reading bsp_id b s)
    (hchannel : s.channel bsp_id p = m :: rest) :
    Reading bsp_id b (s.delivered bsp_id p m rest) := by
  obtain ⟨taken, hscript, hregisters⟩ := h.read p
  have hp : p ≠ bsp_id := by
    rintro rfl
    rw [h.alone] at hchannel
    cases hchannel
  rw [hchannel] at hscript
  have hsends : ((s.brothers p).handles m).2 = [] := by
    have hnothing := sendsNothing_script hp (b p)
    rw [← hscript] at hnothing
    rw [hregisters]
    exact hnothing.next
  have htaken : s.delivered bsp_id p m rest = s.taken bsp_id p m rest := by
    rw [BringUp.delivered, hsends]
    rfl
  rw [htaken]
  refine ⟨fun a q ha => ?_, fun q => ?_⟩
  · rw [taken_channel_of_ne s m rest (.inl ha)]
    exact h.silent a q ha
  · by_cases hq : q = p
    · subst hq
      refine ⟨taken ++ [m], ?_, ?_⟩
      · rw [taken_channel, ← hscript, List.append_assoc]
        rfl
      · rw [taken_brothers, hregisters, Brother.reads, Brother.reads, List.foldl_append]
        rfl
    · obtain ⟨taken', hscript', hregisters'⟩ := h.read q
      refine ⟨taken', ?_, ?_⟩
      · rw [taken_channel_of_ne s m rest (.inr hq)]
        exact hscript'
      · rw [taken_brothers_of_ne s bsp_id m rest hq]
        exact hregisters'

end Silence

end Processors
end BestKernel
