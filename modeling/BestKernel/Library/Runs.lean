import Mathlib.Data.List.Basic

/-!
# Labelled runs and step conditions

A system is given by a labelled step relation.  A run records the label of every
step together with the state it led to.  Two rules turn facts about one step
into facts about a whole run:

* `Runs.always_of_stepsMeet`: a property kept by every step that meets a
  condition holds in every state of a run whose steps all meet it;
* `Runs.always_iff_stepsMeet`: when the condition says exactly which steps keep
  the property, it also says exactly which runs keep it.

A property that unconditionally survives every step is the special case
`Runs.always_of_preserved`.  A property of all runs from a state, `Runs.AlwaysFrom`, is
refuted by following steps to a state where it fails.  What every step of a run does, from
its state to the next, is `Runs.EveryStep`, with the exact rule
`Runs.everyStep_iff_stepsMeet`.  How often some labels occur in a run is bounded by a
measure that they lower (`Runs.count_lt_of_measure`).
-/

namespace Runs

universe u v

variable {σ : Type u} {α : Type v}

/-- Finite runs from a state: the labels taken and the states they led to. -/
inductive Run (step : σ → α → σ → Prop) : σ → List (α × σ) → Prop
  | nil (s : σ) : Run step s []
  | cons {s s' : σ} {a : α} {rest : List (α × σ)}
      (hstep : step s a s')
      (hrest : Run step s' rest) :
      Run step s ((a, s') :: rest)

/-- The property holds in the first state and in every state reached. -/
def Always (P : σ → Prop) (s : σ) (run : List (α × σ)) : Prop :=
  P s ∧ ∀ x, x ∈ run → P x.2

/-- Every step of the run meets the condition in the state it starts from. -/
def StepsMeet (C : σ → α → Prop) : σ → List (α × σ) → Prop
  | _, [] => True
  | s, (a, s') :: rest => C s a ∧ StepsMeet C s' rest

/-- Every step of the run is related to the states before and behind it. -/
def EveryStep (R : σ → α → σ → Prop) : σ → List (α × σ) → Prop
  | _, [] => True
  | s, (a, s') :: rest => R s a s' ∧ EveryStep R s' rest

@[simp] theorem always_nil (P : σ → Prop) (s : σ) :
    Always P s ([] : List (α × σ)) ↔ P s := by
  simp [Always]

@[simp] theorem always_cons
    (P : σ → Prop) (s s' : σ) (a : α) (rest : List (α × σ)) :
    Always P s ((a, s') :: rest) ↔ P s ∧ Always P s' rest := by
  simp [Always]

theorem Always.mono
    {P Q : σ → Prop} {s : σ} {run : List (α × σ)}
    (hPQ : ∀ t, P t → Q t)
    (h : Always P s run) :
    Always Q s run :=
  ⟨hPQ s h.1, fun x hx => hPQ x.2 (h.2 x hx)⟩

/-- A run of a step relation is one of any wider relation. -/
theorem Run.mono
    {step step' : σ → α → σ → Prop} {s : σ} {run : List (α × σ)}
    (hstep : ∀ s a s', step s a s' → step' s a s')
    (hrun : Run step s run) :
    Run step' s run := by
  induction hrun with
  | nil s => exact .nil s
  | cons hfirst _ ih => exact .cons (hstep _ _ _ hfirst) ih

/-- The property holds along every run from the state. -/
def AlwaysFrom (step : σ → α → σ → Prop) (P : σ → Prop) (s : σ) : Prop :=
  ∀ run, Run step s run → Always P s run

theorem AlwaysFrom.here
    {step : σ → α → σ → Prop} {P : σ → Prop} {s : σ}
    (h : AlwaysFrom step P s) :
    P s :=
  (h [] (Run.nil s)).1

theorem AlwaysFrom.next
    {step : σ → α → σ → Prop} {P : σ → Prop} {s s' : σ} {a : α}
    (h : AlwaysFrom step P s)
    (hstep : step s a s') :
    AlwaysFrom step P s' := by
  intro run hrun
  have halways := h _ (Run.cons hstep hrun)
  exact ((always_cons P s s' a run).mp halways).2

section Rules

variable {step : σ → α → σ → Prop} {P : σ → Prop} {C : σ → α → Prop}

/-- A property kept by the steps that meet the condition holds along the run. -/
theorem always_of_stepsMeet
    (hkeep : ∀ s a s', P s → C s a → step s a s' → P s')
    {s : σ} {run : List (α × σ)}
    (hrun : Run step s run)
    (hs : P s)
    (hmeet : StepsMeet C s run) :
    Always P s run := by
  induction hrun with
  | nil s => simpa using hs
  | @cons s s' a rest hstep hrest ih =>
      obtain ⟨hC, hmeet'⟩ := hmeet
      have hs' := hkeep s a s' hs hC hstep
      exact (always_cons P s s' a rest).mpr ⟨hs, ih hs' hmeet'⟩

/-- A property that every step keeps holds along every run. -/
theorem always_of_preserved
    (hkeep : ∀ s a s', P s → step s a s' → P s')
    {s : σ} {run : List (α × σ)}
    (hrun : Run step s run)
    (hs : P s) :
    Always P s run := by
  induction hrun with
  | nil s => simpa using hs
  | @cons s s' a rest hstep hrest ih =>
      exact (always_cons P s s' a rest).mpr ⟨hs, ih (hkeep s a s' hs hstep)⟩

/-- An exact step condition is an exact condition on runs, relative to an invariant of the
steps that keep the property. -/
theorem always_iff_stepsMeet_of_invariant
    {I : σ → Prop}
    (hinv : ∀ s a s', I s → P s → step s a s' → P s' → I s')
    (hexact : ∀ s a s', I s → P s → step s a s' → (P s' ↔ C s a))
    {s : σ} {run : List (α × σ)}
    (hrun : Run step s run)
    (hI : I s)
    (hs : P s) :
    Always P s run ↔ StepsMeet C s run := by
  induction hrun with
  | nil s => simpa [StepsMeet] using hs
  | @cons s s' a rest hstep hrest ih =>
      have hstep' := hexact s a s' hI hs hstep
      rw [always_cons]
      constructor
      · rintro ⟨_, hrest'⟩
        have hs' := hrest'.1
        have hI' := hinv s a s' hI hs hstep hs'
        exact ⟨hstep'.mp hs', (ih hI' hs').mp hrest'⟩
      · rintro ⟨hC, hmeet⟩
        have hs' := hstep'.mpr hC
        have hI' := hinv s a s' hI hs hstep hs'
        exact ⟨hs, (ih hI' hs').mpr hmeet⟩

/-- The exact rule without an invariant. -/
theorem always_iff_stepsMeet
    (hexact : ∀ s a s', P s → step s a s' → (P s' ↔ C s a))
    {s : σ} {run : List (α × σ)}
    (hrun : Run step s run)
    (hs : P s) :
    Always P s run ↔ StepsMeet C s run :=
  always_iff_stepsMeet_of_invariant (I := fun _ => True) (fun _ _ _ _ _ _ _ => trivial)
    (fun s a s' _ => hexact s a s') hrun trivial hs

/-- What every step does from a state of an invariant, every step of a run does. -/
theorem everyStep_of_invariant
    {I : σ → Prop} {R : σ → α → σ → Prop}
    (hinv : ∀ s a s', I s → step s a s' → I s')
    (hdoes : ∀ s a s', I s → step s a s' → R s a s')
    {s : σ} {run : List (α × σ)}
    (hrun : Run step s run)
    (hI : I s) :
    EveryStep R s run := by
  induction hrun with
  | nil s => trivial
  | @cons s s' a rest hstep hrest ih =>
      exact ⟨hdoes s a s' hI hstep, ih (hinv s a s' hI hstep)⟩

/-- The exact rule for a property of the states together with what every step does, relative
to an invariant: the condition says which steps lead to the one and do the other. -/
theorem always_and_everyStep_iff_stepsMeet_of_invariant
    {I : σ → Prop} {R : σ → α → σ → Prop}
    (hinv : ∀ s a s', I s → step s a s' → I s')
    (hexact : ∀ s a s', I s → P s → step s a s' → (P s' ∧ R s a s' ↔ C s a))
    {s : σ} {run : List (α × σ)}
    (hrun : Run step s run)
    (hI : I s)
    (hs : P s) :
    Always P s run ∧ EveryStep R s run ↔ StepsMeet C s run := by
  induction hrun with
  | nil s => simpa [EveryStep, StepsMeet] using hs
  | @cons s s' a rest hstep hrest ih =>
      have hI' := hinv s a s' hI hstep
      rw [always_cons, EveryStep, StepsMeet]
      constructor
      · rintro ⟨⟨_, halways⟩, hR, hevery⟩
        exact ⟨(hexact s a s' hI hs hstep).mp ⟨halways.1, hR⟩,
          (ih hI' halways.1).mp ⟨halways, hevery⟩⟩
      · rintro ⟨hC, hmeet⟩
        obtain ⟨hs', hR⟩ := (hexact s a s' hI hs hstep).mpr hC
        obtain ⟨halways, hevery⟩ := (ih hI' hs').mpr hmeet
        exact ⟨⟨hs, halways⟩, hR, hevery⟩

/-- The exact rule for both without an invariant. -/
theorem always_and_everyStep_iff_stepsMeet
    {R : σ → α → σ → Prop}
    (hexact : ∀ s a s', P s → step s a s' → (P s' ∧ R s a s' ↔ C s a))
    {s : σ} {run : List (α × σ)}
    (hrun : Run step s run)
    (hs : P s) :
    Always P s run ∧ EveryStep R s run ↔ StepsMeet C s run :=
  always_and_everyStep_iff_stepsMeet_of_invariant (I := fun _ => True) (fun _ _ _ _ _ => trivial)
    (fun s a s' _ => hexact s a s') hrun trivial hs

/-- What the steps that meet the condition do, relative to an invariant that they
keep, every step of a run does that meets it throughout. -/
theorem everyStep_of_stepsMeet
    {I : σ → Prop} {R : σ → α → σ → Prop}
    (hinv : ∀ s a s', I s → C s a → step s a s' → I s')
    (hdoes : ∀ s a s', I s → C s a → step s a s' → R s a s')
    {s : σ} {run : List (α × σ)}
    (hrun : Run step s run)
    (hI : I s)
    (hmeet : StepsMeet C s run) :
    EveryStep R s run := by
  induction hrun with
  | nil s => trivial
  | @cons s s' a rest hstep hrest ih =>
      obtain ⟨hC, hmeet'⟩ := hmeet
      exact ⟨hdoes s a s' hI hC hstep, ih (hinv s a s' hI hC hstep) hmeet'⟩

/-- An exact condition on what a step does, relative to an invariant, is an exact
condition on what every step of a run does. -/
theorem everyStep_iff_stepsMeet
    {I : σ → Prop} {R : σ → α → σ → Prop}
    (hinv : ∀ s a s', I s → step s a s' → I s')
    (hexact : ∀ s a s', I s → step s a s' → (R s a s' ↔ C s a))
    {s : σ} {run : List (α × σ)}
    (hrun : Run step s run)
    (hI : I s) :
    EveryStep R s run ↔ StepsMeet C s run := by
  induction hrun with
  | nil s => simp [EveryStep, StepsMeet]
  | @cons s s' a rest hstep hrest ih =>
      rw [EveryStep, StepsMeet, hexact s a s' hI hstep, ih (hinv s a s' hI hstep)]

/-- Labels that lower a positive measure, while the others do not raise it, occur less
often than it says. -/
theorem count_lt_of_measure
    {I : σ → Prop} {D : α → σ → Prop} {c : α → Bool} {M : σ → Nat}
    (hpos : ∀ s, I s → 0 < M s)
    (hlower : ∀ s a s', I s → D a s' → step s a s' →
      I s' ∧ M s' + (c a).toNat ≤ M s)
    {s : σ} {run : List (α × σ)}
    (hrun : Run step s run)
    (hI : I s)
    (hD : ∀ x, x ∈ run → D x.1 x.2) :
    run.countP (fun x => c x.1) < M s := by
  induction hrun with
  | nil s => exact hpos s hI
  | @cons s s' a rest hstep hrest ih =>
      have hhere := hD (a, s') List.mem_cons_self
      obtain ⟨hI', hle⟩ := hlower s a s' hI hhere hstep
      have hcount := ih hI' (fun x hx => hD x (List.mem_cons_of_mem _ hx))
      rw [List.countP_cons]
      cases hcounted : c a with
      | false =>
          rw [hcounted, Bool.toNat_false] at hle
          simpa [hcounted] using Nat.lt_of_lt_of_le hcount hle
      | true =>
          rw [hcounted, Bool.toNat_true] at hle
          simpa [hcounted] using Nat.lt_of_lt_of_le (Nat.succ_lt_succ hcount) hle

end Rules

end Runs
