import BestKernel.Devices.ConfigPorts
import BestKernel.Library.Runs

/-!
# The ports of configuration space, shared

An access takes two steps, of which the first selects a register and the second reads or
writes it.  `write` and `read` make theirs under the calendar of the driver, so that no other
`write` or `read` comes between.  The boot interface and `get_devsel_timing` take no calendar:
theirs come between the steps of any other access, and any other between theirs.

`aimed_iff` says when every access that is half done finds its register still selected: what
comes between its two steps selects the same register, wherever one of the two accesses takes
no calendar.  Two that take it need no condition.

Readings of the source.  The driver has a calendar of its own, which `stream_init` takes and
which a processor waits for.  What an enumeration does at the ports, while the other
processors sleep wherever they were stopped, is any list of transactions.
-/

namespace BestKernel
namespace Devices

open Machine
open Runs

/-- The steps of a call at the ports; an access says whether it is made under the calendar. -/
inductive PortStep where
  | take
  | select (locked : Bool) (t : Transaction)
  | data (locked : Bool) (t : Transaction)
  | clear

/-- `write` and `read` take the calendar. -/
def Access.locked : Access → Bool
  | write _ => true
  | read _ => true
  | bootWrite _ _ => false
  | bootRead _ => false
  | devselTiming => false

/-- What an access goes through at the ports. -/
def Access.portSteps (dev : PciDevice) (access : Access) : List PortStep :=
  let steps := (access.transactions dev).flatMap fun t =>
    [.select access.locked t, .data access.locked t]
  if access.locked then .take :: steps ++ [.clear] else steps

/-- The ports, the space behind them, the processor that has the calendar, and what the
processors have still to do. -/
structure Ports (Processor : Type) where
  selected : Half
  cfg : ConfigSpace
  calendar : Option Processor
  todo : Processor → List PortStep

/-- A step of a processor, or an enumeration. -/
inductive PortOp (Processor : Type) where
  | step (p : Processor)
  | enumerate (transactions : List Transaction)

/-- What a transaction does to the space, at the register that is selected. -/
def Transaction.perform (cfg : ConfigSpace) (selected : Half) : Transaction → ConfigSpace
  | write _ contents => configStore cfg selected contents
  | read _ => cfg

/-- What is selected behind transactions. -/
def selectedBehind (selected : Half) (transactions : List Transaction) : Half :=
  (transactions.getLast?.map Transaction.mask).getD selected

section Sharing

variable {Processor : Type} [DecidableEq Processor]

/-- A processor goes through its first step. -/
def Ports.advance (s : Ports Processor) (p : Processor) (s' : Ports Processor) : Prop :=
  match s.todo p with
  | [] => False
  | step :: rest =>
      let todo := Function.update s.todo p rest
      match step with
      | .take => s.calendar = none ∧ s' = { s with calendar := some p, todo := todo }
      | .select _ t => s' = { s with selected := t.mask, todo := todo }
      | .data _ t => s' = { s with cfg := t.perform s.cfg s.selected, todo := todo }
      | .clear => s' = { s with calendar := none, todo := todo }

def PortsStep (s : Ports Processor) (op : PortOp Processor) (s' : Ports Processor) : Prop :=
  match op with
  | .step p => s.advance p s'
  | .enumerate transactions =>
      s' = { s with
        selected := selectedBehind s.selected transactions
        cfg := (transact s.cfg transactions).2 }

/-- A processor has selected the register of a transaction and not yet come to it. -/
def Ports.Pending (s : Ports Processor) (p : Processor) (locked : Bool) (t : Transaction) :
    Prop :=
  ∃ rest, s.todo p = .data locked t :: rest

/-- A processor is about to select the register of a transaction. -/
def Ports.Selects (s : Ports Processor) (p : Processor) (locked : Bool) (t : Transaction) :
    Prop :=
  ∃ rest, s.todo p = .select locked t :: rest

/-- Every access that is half done finds its register selected. -/
def Ports.Aimed (s : Ports Processor) : Prop :=
  ∀ p locked t, s.Pending p locked t → s.selected = t.mask

/-- The register of an access that is half done stays selected: by an access to another one
where not both take the calendar, and by an enumeration. -/
def LeavesSelected (s : Ports Processor) : PortOp Processor → Prop
  | .step p =>
      ∀ q locked locked' t t', s.Selects p locked t → s.Pending q locked' t' →
        (locked && locked') = false → t.mask = t'.mask
  | .enumerate transactions =>
      ∀ p locked t, s.Pending p locked t → selectedBehind s.selected transactions = t.mask

/-- An access that is gone through reaches the register of its own transaction. -/
def ReachesOwn (s : Ports Processor) (op : PortOp Processor) (s' : Ports Processor) : Prop :=
  match op with
  | .step p => ∀ locked t, s.Pending p locked t → s'.cfg = t.perform s.cfg t.mask
  | .enumerate _ => True

/-- The processors before their calls, each with the accesses that it makes. -/
def Ports.start (program : Processor → List (PciDevice × Access)) (selected : Half)
    (cfg : ConfigSpace) : Ports Processor :=
  ⟨selected, cfg, none, fun p => (program p).flatMap fun call => call.2.portSteps call.1⟩

end Sharing

section Shape

/-- What is left of the steps of calls, within a call that has the calendar or not. -/
inductive Shaped : Bool → List PortStep → Prop
  | nil : Shaped false []
  | take {rest : List PortStep}
      (h : Shaped true rest) :
      Shaped false (.take :: rest)
  | access (locked : Bool) (t : Transaction) {rest : List PortStep}
      (h : Shaped locked rest) :
      Shaped locked (.select locked t :: .data locked t :: rest)
  | clear {rest : List PortStep}
      (h : Shaped false rest) :
      Shaped true (.clear :: rest)

/-- Before an access, or in the middle of one. -/
def Midway (locked : Bool) (todo : List PortStep) : Prop :=
  Shaped locked todo ∨ ∃ t rest, todo = .data locked t :: rest ∧ Shaped locked rest

theorem shaped_transactions
    {locked : Bool} {rest : List PortStep}
    (h : Shaped locked rest)
    (transactions : List Transaction) :
    Shaped locked
      (transactions.flatMap (fun t => [.select locked t, .data locked t]) ++ rest) := by
  induction transactions with
  | nil => exact h
  | cons t transactions ih => exact .access locked t ih

theorem shaped_calls (calls : List (PciDevice × Access)) :
    Shaped false (calls.flatMap fun call => call.2.portSteps call.1) := by
  induction calls with
  | nil => exact .nil
  | cons call calls ih =>
      rw [List.flatMap_cons, Access.portSteps]
      cases call.2.locked with
      | true =>
          rw [if_pos rfl, List.cons_append, List.cons_append, List.append_assoc]
          exact .take (shaped_transactions (.clear ih) _)
      | false =>
          rw [if_neg Bool.false_ne_true]
          exact shaped_transactions ih _

theorem Shaped.not_data
    {within locked : Bool} {t : Transaction} {rest : List PortStep} :
    ¬ Shaped within (.data locked t :: rest) :=
  nofun

end Shape

section Guarded

variable {Processor : Type} [DecidableEq Processor]

/-- The processor has the calendar. -/
def Ports.holds (s : Ports Processor) (p : Processor) : Bool := decide (s.calendar = some p)

/-- Whoever is within a call that takes the calendar has it, and nobody else. -/
def Ports.Guarded (s : Ports Processor) : Prop :=
  ∀ p, Midway (s.holds p) (s.todo p)

variable {s s' : Ports Processor} {p q : Processor}

theorem Ports.Guarded.start
    (program : Processor → List (PciDevice × Access)) (selected : Half) (cfg : ConfigSpace) :
    (Ports.start program selected cfg).Guarded :=
  fun p => Or.inl (shaped_calls (program p))

/-- An access that is half done is under the calendar exactly if its processor has it. -/
theorem Ports.Guarded.pending
    {locked : Bool} {t : Transaction}
    (h : s.Guarded)
    (hpending : s.Pending p locked t) :
    locked = s.holds p := by
  obtain ⟨rest, htodo⟩ := hpending
  rcases h p with hshaped | ⟨own, rest', hnext, -⟩
  · rw [htodo] at hshaped
    exact absurd hshaped Shaped.not_data
  · cases htodo.symm.trans hnext
    rfl

/-- The calendar has one holder. -/
theorem Ports.holds_unique
    (hp : s.holds p = true)
    (hq : s.holds q = true) :
    p = q :=
  Option.some.inj ((of_decide_eq_true hp).symm.trans (of_decide_eq_true hq))

/-- What the next step of a processor is, and what it does. -/
inductive Advanced (s : Ports Processor) (p : Processor) : Ports Processor → Prop
  | take {rest : List PortStep}
      (htodo : s.todo p = .take :: rest)
      (hshaped : Shaped true rest)
      (hfree : s.calendar = none) :
      Advanced s p { s with calendar := some p, todo := Function.update s.todo p rest }
  | select {t : Transaction} {rest : List PortStep}
      (htodo : s.todo p = .select (s.holds p) t :: .data (s.holds p) t :: rest)
      (hshaped : Shaped (s.holds p) rest) :
      Advanced s p { s with
        selected := t.mask
        todo := Function.update s.todo p (.data (s.holds p) t :: rest) }
  | data {t : Transaction} {rest : List PortStep}
      (htodo : s.todo p = .data (s.holds p) t :: rest)
      (hshaped : Shaped (s.holds p) rest) :
      Advanced s p { s with
        cfg := t.perform s.cfg s.selected
        todo := Function.update s.todo p rest }
  | clear {rest : List PortStep}
      (htodo : s.todo p = .clear :: rest)
      (hshaped : Shaped false rest)
      (hmine : s.calendar = some p) :
      Advanced s p { s with calendar := none, todo := Function.update s.todo p rest }

theorem Ports.Guarded.advanced
    (h : s.Guarded)
    (hstep : s.advance p s') :
    Advanced s p s' := by
  unfold Ports.advance at hstep
  rcases h p with hshaped | ⟨t, rest, htodo, hshaped⟩
  · generalize htodo : s.todo p = todo at hstep hshaped
    generalize hholds : s.holds p = locked at hshaped
    cases hshaped with
    | nil => exact hstep.elim
    | take hrest =>
        obtain ⟨hfree, rfl⟩ := hstep
        exact .take htodo hrest hfree
    | access _ t hrest =>
        subst hholds
        obtain rfl := hstep
        exact .select htodo hrest
    | clear hrest =>
        obtain rfl := hstep
        exact .clear htodo hrest (of_decide_eq_true hholds)
  · rw [htodo] at hstep
    obtain rfl := hstep
    exact .data htodo hshaped

/-- One processor goes on, and the others keep what they had. -/
theorem Ports.Guarded.update
    {selected : Half} {cfg : ConfigSpace} {calendar : Option Processor} {rest : List PortStep}
    (h : s.Guarded)
    (hothers : ∀ q, q ≠ p → (calendar = some q ↔ s.calendar = some q))
    (hnext : Midway (decide (calendar = some p)) rest) :
    Ports.Guarded ⟨selected, cfg, calendar, Function.update s.todo p rest⟩ := by
  intro q
  unfold Ports.holds
  dsimp only
  by_cases hqp : q = p
  · subst hqp
    rw [Function.update_self]
    exact hnext
  · rw [Function.update_of_ne hqp, decide_eq_decide.mpr (hothers q hqp)]
    exact h q

theorem portsStep_guarded
    {op : PortOp Processor}
    (h : s.Guarded)
    (hstep : PortsStep s op s') :
    s'.Guarded := by
  cases op with
  | enumerate transactions =>
      cases hstep
      exact h
  | step p =>
      cases h.advanced hstep with
      | take htodo hshaped hfree =>
          refine h.update (fun q hq => ?_) ?_
          · rw [hfree]
            exact iff_of_false (fun heq => hq (Option.some.inj heq).symm) nofun
          · rw [decide_eq_true rfl]
            exact Or.inl hshaped
      | select htodo hshaped =>
          exact h.update (fun _ _ => Iff.rfl) (Or.inr ⟨_, _, rfl, hshaped⟩)
      | data htodo hshaped => exact h.update (fun _ _ => Iff.rfl) (Or.inl hshaped)
      | clear htodo hshaped hmine =>
          refine h.update (fun q hq => ?_) (Or.inl hshaped)
          rw [hmine]
          exact iff_of_false nofun fun heq => hq (Option.some.inj heq).symm

/-- What is half done behind a step: of who steps, or as it was. -/
theorem pending_update
    {selected : Half} {cfg : ConfigSpace} {calendar : Option Processor} {rest : List PortStep}
    {locked : Bool} {t : Transaction}
    (hpending : Ports.Pending ⟨selected, cfg, calendar, Function.update s.todo p rest⟩ q
      locked t) :
    (q = p ∧ ∃ rest', rest = .data locked t :: rest') ∨ (q ≠ p ∧ s.Pending q locked t) := by
  obtain ⟨rest', htodo⟩ := hpending
  dsimp only at htodo
  by_cases hq : q = p
  · subst hq
    rw [Function.update_self] at htodo
    exact Or.inl ⟨rfl, rest', htodo⟩
  · rw [Function.update_of_ne hq] at htodo
    exact Or.inr ⟨hq, rest', htodo⟩

/-- A step that selects nothing leaves aimed what was. -/
theorem aimed_update
    {cfg : ConfigSpace} {calendar : Option Processor} {within : Bool} {rest : List PortStep}
    (haimed : s.Aimed)
    (hshaped : Shaped within rest) :
    Ports.Aimed ⟨s.selected, cfg, calendar, Function.update s.todo p rest⟩ := by
  intro q locked t hpending
  rcases pending_update hpending with ⟨-, rest', rfl⟩ | ⟨-, hbefore⟩
  · exact absurd hshaped Shaped.not_data
  · exact haimed q locked t hbefore

/-- **Two accesses under the calendar do not meet**, so that a selection undoes another one
only where one of the two takes none. -/
theorem select_aimed_iff
    {t : Transaction} {rest : List PortStep}
    (h : s.Guarded)
    (htodo : s.todo p = .select (s.holds p) t :: .data (s.holds p) t :: rest) :
    Ports.Aimed { s with
        selected := t.mask
        todo := Function.update s.todo p (.data (s.holds p) t :: rest) } ↔
      LeavesSelected s (.step p) := by
  constructor
  · rintro haimed q locked locked' own other ⟨rest', hselects⟩ ⟨rest'', hpending⟩ -
    cases htodo.symm.trans hselects
    have hq : q ≠ p := by
      rintro rfl
      cases htodo.symm.trans hpending
    refine haimed q locked' other ⟨rest'', ?_⟩
    dsimp only
    rw [Function.update_of_ne hq]
    exact hpending
  · intro hleaves q locked other hpending
    rcases pending_update hpending with ⟨rfl, rest', heq⟩ | ⟨hq, hbefore⟩
    · cases heq
      rfl
    · refine hleaves q (s.holds p) locked t other ⟨_, htodo⟩ hbefore ?_
      by_contra hboth
      rw [Bool.not_eq_false, Bool.and_eq_true, h.pending hbefore] at hboth
      exact hq (Ports.holds_unique hboth.2 hboth.1)

omit [DecidableEq Processor] in
theorem not_pending
    {step : PortStep} {rest : List PortStep} {locked : Bool} {t : Transaction}
    (htodo : s.todo p = step :: rest)
    (hstep : step ≠ .data locked t) :
    ¬ s.Pending p locked t := by
  rintro ⟨rest', hnext⟩
  exact hstep (List.cons.inj (htodo.symm.trans hnext)).1

omit [DecidableEq Processor] in
theorem leavesSelected_of_not_select
    {step : PortStep} {rest : List PortStep}
    (htodo : s.todo p = step :: rest)
    (hstep : ∀ locked t, step ≠ .select locked t) :
    LeavesSelected s (.step p) := by
  rintro q locked locked' t t' ⟨rest', hnext⟩ - -
  exact absurd (List.cons.inj (htodo.symm.trans hnext)).1 (hstep locked t)

/-- What a step of a processor does to the accesses that are half done. -/
theorem advance_aimed_iff
    (h : s.Guarded)
    (haimed : s.Aimed)
    (hstep : s.advance p s') :
    s'.Aimed ∧ ReachesOwn s (.step p) s' ↔ LeavesSelected s (.step p) := by
  cases h.advanced hstep with
  | take htodo hshaped hfree =>
      refine iff_of_true ⟨aimed_update haimed hshaped, fun locked t hown => ?_⟩
        (leavesSelected_of_not_select htodo nofun)
      exact absurd hown (not_pending htodo nofun)
  | select htodo hshaped =>
      rw [select_aimed_iff h htodo]
      exact and_iff_left fun locked t hown => absurd hown (not_pending htodo nofun)
  | @data own rest htodo hshaped =>
      refine iff_of_true ⟨aimed_update haimed hshaped, ?_⟩
        (leavesSelected_of_not_select htodo nofun)
      rintro locked t ⟨rest', hnext⟩
      have hselected := haimed p (s.holds p) own ⟨rest, htodo⟩
      cases htodo.symm.trans hnext
      dsimp only
      rw [hselected]
  | clear htodo hshaped hmine =>
      refine iff_of_true ⟨aimed_update haimed hshaped, fun locked t hown => ?_⟩
        (leavesSelected_of_not_select htodo nofun)
      exact absurd hown (not_pending htodo nofun)

/-- **An access finds its register selected exactly when nothing but a `write` or `read` comes
between those of another one, and no enumeration**, unless it is for the same register. -/
theorem aimed_iff
    (program : Processor → List (PciDevice × Access)) (selected : Half) (cfg : ConfigSpace)
    {run : List (PortOp Processor × Ports Processor)}
    (hrun : Run PortsStep (Ports.start program selected cfg) run) :
    Always Ports.Aimed (Ports.start program selected cfg) run ∧
        EveryStep ReachesOwn (Ports.start program selected cfg) run ↔
      StepsMeet LeavesSelected (Ports.start program selected cfg) run := by
  have hstart : (Ports.start program selected cfg).Aimed := by
    rintro p locked t ⟨rest, htodo⟩
    have hshaped := shaped_calls (program p)
    rw [show (program p).flatMap (fun call => call.2.portSteps call.1) = _ from htodo] at hshaped
    exact absurd hshaped Shaped.not_data
  refine always_and_everyStep_iff_stepsMeet_of_invariant
    (fun _ _ _ h hstep => portsStep_guarded h hstep) (fun s op s' h haimed hstep => ?_) hrun
    (Ports.Guarded.start program selected cfg) hstart
  cases op with
  | step p => exact advance_aimed_iff h haimed hstep
  | enumerate transactions =>
      cases hstep
      exact and_iff_left trivial

end Guarded

section Examples

/-- A driver of the host bridge reads its command register, and the boot interface its
identification. -/
def hostRead : Bool → List (PciDevice × Access)
  | false => [(.zero, .read [4])]
  | true => [(.zero, .bootRead 0)]

/-- Nothing has been selected yet. -/
def hostPorts : Ports Bool := Ports.start hostRead 0 fun _ _ _ _ => 0

def hostTransaction : Transaction := .read (transferAddress .zero 4)

def bootTransaction : Transaction := .read (configAddress 0 0 0 0)

/-- The driver has the calendar. -/
def hostTaken : Ports Bool :=
  { hostPorts with
    calendar := some false
    todo := Function.update hostPorts.todo false
      [.select true hostTransaction, .data true hostTransaction, .clear] }

/-- It has selected its register. -/
def hostSelecting : Ports Bool :=
  { hostTaken with
    selected := hostTransaction.mask
    todo := Function.update hostTaken.todo false [.data true hostTransaction, .clear] }

/-- It has read. -/
def hostDone : Ports Bool :=
  { hostSelecting with todo := Function.update hostSelecting.todo false [.clear] }

/-- The boot interface selects its own register. -/
def bootSelecting (s : Ports Bool) : Ports Bool :=
  { s with
    selected := bootTransaction.mask
    todo := Function.update s.todo true [.data false bootTransaction] }

/-- The boot interface comes between the two steps of the driver. -/
def disturbedRun : List (PortOp Bool × Ports Bool) :=
  [(.step false, hostTaken), (.step false, hostSelecting),
    (.step true, bootSelecting hostSelecting)]

/-- It comes behind both of them. -/
def undisturbedRun : List (PortOp Bool × Ports Bool) :=
  [(.step false, hostTaken), (.step false, hostSelecting), (.step false, hostDone),
    (.step true, bootSelecting hostDone)]

theorem run_disturbedRun : Run PortsStep hostPorts disturbedRun :=
  .cons ⟨rfl, rfl⟩ (.cons rfl (.cons rfl (.nil _)))

theorem run_undisturbedRun : Run PortsStep hostPorts undisturbedRun :=
  .cons ⟨rfl, rfl⟩ (.cons rfl (.cons rfl (.cons rfl (.nil _))))

theorem disturbedRun_not_meets : ¬ StepsMeet LeavesSelected hostPorts disturbedRun := by
  rintro ⟨-, -, hleaves, -⟩
  have hselected := hleaves false false true bootTransaction hostTransaction ⟨_, rfl⟩ ⟨_, rfl⟩ rfl
  exact absurd hselected (by decide)

theorem undisturbedRun_meets : StepsMeet LeavesSelected hostPorts undisturbedRun := by
  refine ⟨leavesSelected_of_not_select rfl nofun, ?_, leavesSelected_of_not_select rfl nofun, ?_,
    trivial⟩
  · -- the boot interface has not begun
    rintro q locked locked' own other - ⟨rest, hpending⟩ -
    cases q <;> cases hpending
  · -- the driver has read
    rintro q locked locked' own other - ⟨rest, hpending⟩ -
    cases q <;> cases hpending

theorem aimed_iff_hostRead :
    (¬ (Always Ports.Aimed hostPorts disturbedRun ∧
        EveryStep ReachesOwn hostPorts disturbedRun)) ∧
      Always Ports.Aimed hostPorts undisturbedRun ∧
        EveryStep ReachesOwn hostPorts undisturbedRun := by
  constructor
  · exact fun haimed => disturbedRun_not_meets
      ((aimed_iff hostRead 0 (fun _ _ _ _ => 0) run_disturbedRun).mp haimed)
  · exact (aimed_iff hostRead 0 (fun _ _ _ _ => 0) run_undisturbedRun).mpr undisturbedRun_meets

end Examples

end Devices
end BestKernel
